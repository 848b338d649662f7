import SelericSwarm.Machine
import SelericSwarm.Memories
import SelericSwarm.Relational
import Mathlib.Data.List.ReduceOption

/-! Attachments and the messages they are sent with: `associate_many` of both repositories, and the
calls that may come between two of its calls. -/
open List Option

namespace SelericSwarm
open Keyed

/-- The arguments of `associate_many`. -/
structure AssociateCall where
  attachmentIds : List String
  messageId : String
  threadId : String
  workspaceId : String
  ownerUserId : String

namespace AssociateCall
variable (c : AssociateCall)

def uniqueIds : List String := fromKeys c.attachmentIds

def free (item : Attachment) : Bool := AttachmentRepository.associable c.threadId c.workspaceId c.ownerUserId item

def taken (item : Attachment) : Attachment := { item with messageId := some c.messageId }

@[simp] theorem taken_id (item : Attachment) : (c.taken item).id = item.id := rfl

/-- `InMemoryAttachmentRepository.associate_many`. -/
def inMemory (s : AttachmentRepository) : Bool × AttachmentRepository :=
  let attachments := c.uniqueIds.map s.get?
  if attachments.any fun item => !item.any c.free then (false, s)
  else (true, attachments.reduceOption.foldl (fun s item => Table.put s (c.taken item)) s)

/-- `WHERE id=:id AND thread_id=:thread_id AND workspace_id=:workspace_id AND owner_user_id=:owner_user_id`. -/
def picks (id : String) (row : Attachment) : Bool :=
  row.id = id && row.threadId = c.threadId && row.workspaceId = c.workspaceId && row.ownerUserId = c.ownerUserId

/-- The rows locked one by one; none as soon as one is missing. -/
def lock (s : AttachmentRepository) : List String → Option (List Attachment)
  | [] => some []
  | id :: ids => (s.rows.filter (c.picks id)).head?.bind fun row => (lock s ids).map (row :: ·)

/-- `PostgresAttachmentRepository.associate_many`. -/
def postgres (s : AttachmentRepository) : Bool × AttachmentRepository :=
  match c.lock s c.uniqueIds with
  | none => (false, s)
  | some locked =>
    if locked.any fun row => !c.free row then (false, s)
    else (true, c.uniqueIds.foldl (fun s id => (Table.updateWhere s (c.picks id) c.taken c.taken_id).2) s)

end AssociateCall

inductive AttachmentBackend where
  | memory
  | postgres
  deriving DecidableEq

inductive AttachmentStep where
  | associate (call : AssociateCall)
  | create (attachment : Attachment)
  | update (attachment : Attachment)
  | delete (attachmentId : String)

/-- `associated` are the attachments of the calls that have returned True, with their messages. -/
structure AttachmentRun where
  store : AttachmentRepository
  associated : List (String × String) := []

namespace AttachmentBackend

def associateMany (backend : AttachmentBackend) (s : AttachmentRepository) (call : AssociateCall) :
    Bool × AttachmentRepository :=
  match backend with
  | memory => call.inMemory s
  | postgres => call.postgres s

/-- `INSERT ... ON CONFLICT (id) DO NOTHING` in Postgres. -/
def create (backend : AttachmentBackend) (s : AttachmentRepository) (attachment : Attachment) : AttachmentRepository :=
  match backend with
  | memory => (AttachmentRepository.create s attachment).2
  | postgres => if attachment.verified then Table.setdefault s attachment else s

def update (backend : AttachmentBackend) (s : AttachmentRepository) (attachment : Attachment) : AttachmentRepository :=
  match backend with
  | memory => (AttachmentRepository.update s attachment).2
  | postgres =>
    if attachment.verified then
      (Table.updateWhere s
        (fun row => row.id = attachment.id && row.workspaceId = attachment.workspaceId &&
          row.ownerUserId = attachment.ownerUserId)
        (fun row => { row with
          messageId := attachment.messageId, storageUri := attachment.storageUri
          checksumSha256 := attachment.checksumSha256, status := attachment.status
          scanStatus := attachment.scanStatus })
        fun _ => rfl).2
    else s

def delete (backend : AttachmentBackend) (s : AttachmentRepository) (attachmentId : String) : AttachmentRepository :=
  match backend with
  | memory => (AttachmentRepository.delete s attachmentId).2
  | postgres => (Table.updateWhere s (·.id = attachmentId) (fun row => { row with status := .deleted }) fun _ => rfl).2

/-- An update keeps the message of the attachment. -/
def step (backend : AttachmentBackend) (w : AttachmentRun) : AttachmentStep → Option AttachmentRun
  | .associate call =>
    let result := backend.associateMany w.store call
    some
      { store := result.2
        associated :=
          if result.1 then call.uniqueIds.map (·, call.messageId) ++ w.associated else w.associated }
  | .create attachment => some { w with store := backend.create w.store attachment }
  | .update attachment =>
    if (w.store.get? attachment.id).all (·.messageId = attachment.messageId) then
      some { w with store := backend.update w.store attachment }
    else none
  | .delete attachmentId => some { w with store := backend.delete w.store attachmentId }

end AttachmentBackend

/-! One call. -/

namespace AssociateCall
variable (c : AssociateCall) {s : AttachmentRepository} {ids : List String}

/-- The attachments with these ids get the message. -/
def mark (ids : List String) (s : AttachmentRepository) : AttachmentRepository :=
  Table.mapRows s (fun item => if item.id ∈ ids then c.taken item else item) (by
    intro item
    split
    · rfl
    · rfl)

theorem get?_mark (ids : List String) (s : AttachmentRepository) (id : String) :
    (c.mark ids s).get? id = (s.get? id).map fun item => if id ∈ ids then c.taken item else item := by
  rw [mark, Table.get?_mapRows]
  cases h : s.get? id with
  | none => rfl
  | some item =>
    have hid : item.id = id := Table.key_of_get? h
    simp [hid]

theorem mark_nil (s : AttachmentRepository) : c.mark [] s = s := by
  refine Table.ext_rows ?_
  rw [mark, Table.mapRows]
  simp

theorem mark_mark (id : String) (ids : List String) (s : AttachmentRepository) :
    c.mark ids (c.mark [id] s) = c.mark (id :: ids) s := by
  refine Table.ext_rows ?_
  simp only [mark, Table.mapRows, List.map_map]
  refine map_congr_left fun item _ => ?_
  by_cases hid : item.id = id
  · simp [hid, taken]
  · simp [hid]

theorem put_taken {item : Attachment} (h : s.get? item.id = some item) :
    Table.put s (c.taken item) = c.mark [item.id] s := by
  have hown : s.get? (c.taken item).id = some item := h
  refine Table.ext_rows ?_
  rw [Table.put_rows_of_get? hown, mark, Table.mapRows, Table.replace]
  refine map_congr_left fun row hrow => ?_
  by_cases hid : row.id = item.id
  · have hsame : row = item := Table.eq_of_mem hrow (Table.mem_of_get? h) hid
    subst hsame
    simp [taken]
  · simp [hid, taken]

theorem foldl_put (items : List Attachment) : ∀ s : AttachmentRepository, (items.map Attachment.id).Nodup →
    (∀ item ∈ items, s.get? item.id = some item) →
    items.foldl (fun s item => Table.put s (c.taken item)) s = c.mark (items.map Attachment.id) s := by
  induction items with
  | nil => exact fun s _ _ => (c.mark_nil s).symm
  | cons item items ih =>
    intro s hnodup hread
    obtain ⟨hnew, hnodup⟩ := nodup_cons.mp hnodup
    have hlater : ∀ other ∈ items, (c.mark [item.id] s).get? other.id = some other := by
      intro other hother
      have hne : other.id ≠ item.id := fun heq => hnew (heq ▸ List.mem_map_of_mem hother)
      rw [get?_mark, hread other (mem_cons_of_mem item hother)]
      simp [hne]
    rw [foldl_cons, c.put_taken (hread item mem_cons_self), ih _ hnodup hlater, mark_mark, map_cons]

theorem foldl_updateWhere (ids : List String) : ∀ s : AttachmentRepository,
    (∀ id ∈ ids, ∃ row, s.get? id = some row ∧ c.picks id row = true) →
    ids.foldl (fun s id => (Table.updateWhere s (c.picks id) c.taken c.taken_id).2) s = c.mark ids s := by
  induction ids with
  | nil => exact fun s _ => (c.mark_nil s).symm
  | cons id ids ih =>
    intro s hrows
    obtain ⟨row, hrow, hpicked⟩ := hrows id mem_cons_self
    have hkey : ∀ a, c.picks id a = true → a.id = id := by
      intro a ha
      simp only [picks, Bool.and_eq_true, decide_eq_true_eq] at ha
      exact ha.1.1.1
    have hid : row.id = id := hkey row hpicked
    have hone : (Table.updateWhere s (c.picks id) c.taken c.taken_id).2 = c.mark [id] s := by
      rw [Table.updateWhere_hit hkey hrow hpicked, c.put_taken (hid ▸ hrow), hid]
    have hlater : ∀ other ∈ ids, ∃ row, (c.mark [id] s).get? other = some row ∧ c.picks other row = true := by
      intro other hother
      obtain ⟨row, hrow, hpicked⟩ := hrows other (mem_cons_of_mem id hother)
      rw [get?_mark, hrow]
      refine ⟨_, rfl, ?_⟩
      split
      · exact hpicked
      · exact hpicked
    rw [foldl_cons, hone, ih _ hlater, mark_mark]

/-- Every attachment that is asked for is there and free. -/
def Allowed (s : AttachmentRepository) : Prop := ∀ id ∈ c.attachmentIds, ∃ item, s.get? id = some item ∧ c.free item = true

instance : Decidable (c.Allowed s) :=
  decidable_of_iff (∀ id ∈ c.attachmentIds, (s.get? id).any c.free = true) (by
    refine forall₂_congr fun id _ => ?_
    rw [Option.any_eq_true])

theorem any_get? (s : AttachmentRepository) (ids : List String) :
    (ids.map s.get?).any (fun item => !item.any c.free) = true ↔
      ¬∀ id ∈ ids, ∃ item, s.get? id = some item ∧ c.free item = true := by
  rw [List.any_map, List.any_eq_true, not_forall]
  refine exists_congr fun id => ?_
  rw [Classical.not_imp, ← Option.any_eq_true]
  simp

theorem reduceOption_get? {s : AttachmentRepository} (ids : List String) (h : ∀ id ∈ ids, ∃ item, s.get? id = some item) :
    ((ids.map s.get?).reduceOption.map Attachment.id = ids) ∧
      ∀ item ∈ (ids.map s.get?).reduceOption, s.get? item.id = some item := by
  induction ids with
  | nil => exact ⟨rfl, nofun⟩
  | cons id ids ih =>
    obtain ⟨item, hitem⟩ := h id mem_cons_self
    obtain ⟨hids, hread⟩ := ih fun other hother => h other (mem_cons_of_mem id hother)
    have hid : item.id = id := Table.key_of_get? hitem
    rw [map_cons, hitem, reduceOption_cons_of_some, map_cons, hid, hids]
    refine ⟨rfl, fun other hother => ?_⟩
    obtain rfl | hother := mem_cons.mp hother
    · rw [hid]
      exact hitem
    · exact hread other hother

theorem inMemory_eq (s : AttachmentRepository) :
    c.inMemory s = if c.Allowed s then (true, c.mark c.uniqueIds s) else (false, s) := by
  have hall : c.Allowed s ↔ ∀ id ∈ c.uniqueIds, ∃ item, s.get? id = some item ∧ c.free item = true :=
    forall_congr' fun id => imp_congr_left mem_fromKeys.symm
  rw [inMemory]
  by_cases h : c.Allowed s
  · have hread := hall.mp h
    rw [if_neg (mt (c.any_get? s c.uniqueIds).mp (not_not_intro hread)), if_pos h]
    obtain ⟨hids, hstored⟩ := reduceOption_get? c.uniqueIds fun id hid =>
      (hread id hid).imp fun _ hitem => hitem.1
    rw [c.foldl_put _ s (hids.symm ▸ nodup_fromKeys _) hstored, hids]
  · rw [if_pos ((c.any_get? s c.uniqueIds).mpr (mt hall.mpr h)), if_neg h]

theorem picks_key {id : String} (row : Attachment) (h : c.picks id row = true) : row.id = id := by
  simp only [picks, Bool.and_eq_true, decide_eq_true_eq] at h
  exact h.1.1.1

theorem mark_uniqueIds (s : AttachmentRepository) : c.mark c.uniqueIds s = c.mark c.attachmentIds s := by
  refine Table.ext_rows ?_
  simp only [mark, Table.mapRows, uniqueIds, mem_fromKeys]

/-- `associate_many` in one go. -/
theorem associateMany_inMemory (s : AttachmentRepository) :
    AttachmentRepository.associateMany s c.attachmentIds c.messageId c.threadId c.workspaceId c.ownerUserId =
      c.inMemory s := by
  have hall : (c.attachmentIds.all fun id => (s.get? id).any c.free) = true ↔ c.Allowed s := by
    rw [List.all_eq_true]
    exact forall₂_congr fun id _ => Option.any_eq_true ..
  rw [inMemory_eq, mark_uniqueIds, AttachmentRepository.associateMany]
  by_cases h : c.Allowed s
  · rw [if_pos h]
    exact if_pos (hall.mpr h)
  · rw [if_neg h]
    exact if_neg (mt hall.mp h)

/-- The `SELECT` of one id. -/
theorem head?_picks (s : AttachmentRepository) (id : String) :
    (s.rows.filter (c.picks id)).head? = (s.get? id).filter (c.picks id) := by
  rw [Table.filter_key c.picks_key, Option.head?_toList]

theorem picks_of_free {id : String} {row : Attachment} (hid : row.id = id) (h : c.free row = true) :
    c.picks id row = true := by
  simp only [free, AttachmentRepository.associable, Bool.and_eq_true, decide_eq_true_eq] at h
  simp only [picks, Bool.and_eq_true, decide_eq_true_eq]
  exact ⟨⟨⟨hid, h.1.1.1.1.1⟩, h.1.1.1.1.2⟩, h.1.1.1.2⟩

theorem lock_some {s : AttachmentRepository} (ids : List String) : ∀ locked, c.lock s ids = some locked →
    ids.map s.get? = locked.map some ∧ ∀ id ∈ ids, ∃ row, s.get? id = some row ∧ c.picks id row = true := by
  induction ids with
  | nil =>
    intro locked h
    cases h
    exact ⟨rfl, nofun⟩
  | cons id ids ih =>
    intro locked h
    obtain ⟨row, hrow, h⟩ := bind_eq_some_iff.mp h
    obtain ⟨later, hlater, rfl⟩ := map_eq_some_iff.mp h
    obtain ⟨hmap, hpicked⟩ := ih later hlater
    rw [head?_picks, filter_eq_some_iff] at hrow
    refine ⟨by rw [map_cons, hrow.1, hmap, map_cons], fun other hother => ?_⟩
    obtain rfl | hother := mem_cons.mp hother
    · exact ⟨row, hrow⟩
    · exact hpicked other hother

theorem lock_isSome {s : AttachmentRepository} (ids : List String)
    (h : ∀ id ∈ ids, ∃ row, s.get? id = some row ∧ c.picks id row = true) : ∃ locked, c.lock s ids = some locked := by
  induction ids with
  | nil => exact ⟨[], rfl⟩
  | cons id ids ih =>
    obtain ⟨row, hrow⟩ := h id mem_cons_self
    obtain ⟨locked, hlocked⟩ := ih fun other hother => h other (mem_cons_of_mem id hother)
    refine ⟨row :: locked, ?_⟩
    rw [lock, head?_picks, filter_eq_some_iff.mpr hrow, bind_some, hlocked, map_some]

/-- The two implementations return the same and leave the same rows. -/
theorem postgres_eq (s : AttachmentRepository) : c.postgres s = c.inMemory s := by
  have hall : c.Allowed s ↔ ∀ id ∈ c.uniqueIds, ∃ item, s.get? id = some item ∧ c.free item = true :=
    forall_congr' fun id => imp_congr_left mem_fromKeys.symm
  rw [inMemory_eq, postgres]
  cases hlock : c.lock s c.uniqueIds with
  | none =>
    have hnot : ¬c.Allowed s := by
      intro h
      obtain ⟨locked, hlocked⟩ := c.lock_isSome c.uniqueIds fun id hid => by
        obtain ⟨row, hrow, hfree⟩ := hall.mp h id hid
        exact ⟨row, hrow, c.picks_of_free (Table.key_of_get? hrow) hfree⟩
      rw [hlock] at hlocked
      cases hlocked
    rw [if_neg hnot]
  | some locked =>
    obtain ⟨hmap, hpicked⟩ := c.lock_some c.uniqueIds locked hlock
    have hfree : locked.any (fun row => !c.free row) = true ↔ ¬c.Allowed s := by
      rw [hall, ← c.any_get? s c.uniqueIds, hmap, List.any_map]
      rfl
    dsimp only
    by_cases h : c.Allowed s
    · rw [if_neg (mt hfree.mp (not_not_intro h)), if_pos h, c.foldl_updateWhere c.uniqueIds s hpicked]
    · rw [if_pos (hfree.mpr h), if_neg h]

end AssociateCall

namespace AttachmentBackend
variable (backend : AttachmentBackend)

theorem associateMany_eq (s : AttachmentRepository) (call : AssociateCall) :
    backend.associateMany s call = if call.Allowed s then (true, call.mark call.uniqueIds s) else (false, s) := by
  cases backend with
  | memory => exact call.inMemory_eq s
  | postgres => exact (call.postgres_eq s).trans (call.inMemory_eq s)

end AttachmentBackend

/-! Runs. -/

def Owned (s : AttachmentRepository) (id messageId : String) : Prop :=
  ∃ item, s.get? id = some item ∧ item.messageId = some messageId

namespace Owned
variable {s : AttachmentRepository} {id messageId : String}

theorem put {attachment : Attachment} (h : Owned s id messageId)
    (hkeep : attachment.id = id → attachment.messageId = some messageId) :
    Owned (Table.put s attachment) id messageId := by
  obtain ⟨item, hitem, howner⟩ := h
  by_cases hid : attachment.id = id
  · exact ⟨attachment, by rw [Table.get?_put, if_pos hid], hkeep hid⟩
  · exact ⟨item, by rw [Table.get?_put, if_neg hid, hitem], howner⟩

theorem updateWhere {picks : Attachment → Bool} {change : Attachment → Attachment} {hid : ∀ row, (change row).id = row.id}
    (h : Owned s id messageId)
    (hkeep : ∀ row, s.get? id = some row → picks row = true → (change row).messageId = row.messageId) :
    Owned (Table.updateWhere s picks change hid).2 id messageId := by
  obtain ⟨item, hitem, howner⟩ := h
  refine ⟨if picks item then change item else item, ?_, ?_⟩
  · rw [Table.updateWhere, Table.get?_mapRows, hitem]
    rfl
  · split
    · next hpicked => rw [hkeep item hitem hpicked, howner]
    · exact howner

theorem mark {call : AssociateCall} (h : Owned s id messageId) (hallowed : call.Allowed s) :
    Owned (call.mark call.uniqueIds s) id messageId := by
  obtain ⟨item, hitem, howner⟩ := h
  refine ⟨item, ?_, howner⟩
  rw [AssociateCall.get?_mark, hitem, map_some]
  split
  · next hid =>
    obtain ⟨other, hother, hfree⟩ := hallowed id (mem_fromKeys.mp hid)
    rw [hitem] at hother
    cases hother
    simp [AssociateCall.free, AttachmentRepository.associable, howner] at hfree
  · rfl

variable {backend : AttachmentBackend} {attachment : Attachment}

theorem associateMany (h : Owned s id messageId) (call : AssociateCall) :
    Owned (backend.associateMany s call).2 id messageId := by
  rw [backend.associateMany_eq]
  split
  · next hallowed => exact h.mark hallowed
  · exact h

theorem create (h : Owned s id messageId) : Owned (backend.create s attachment) id messageId := by
  cases backend with
  | memory =>
    rw [AttachmentBackend.create, AttachmentRepository.create]
    split
    · rw [createIn]
      split
      · next hnew =>
        refine h.put fun hid => ?_
        obtain ⟨item, hitem, -⟩ := h
        rw [hid, hitem] at hnew
        cases hnew
      · split
        · exact h
        · exact h
    · exact h
  | postgres =>
    rw [AttachmentBackend.create]
    split
    · obtain ⟨item, hitem, howner⟩ := h
      exact ⟨item, Table.get?_setdefault_of_some hitem, howner⟩
    · exact h

theorem update (h : Owned s id messageId)
    (hkeep : (s.get? attachment.id).all (·.messageId = attachment.messageId) = true) :
    Owned (backend.update s attachment) id messageId := by
  have hown : ∀ row, s.get? id = some row → attachment.id = id → attachment.messageId = row.messageId := by
    intro row hrow hid
    rw [hid, hrow] at hkeep
    exact (of_decide_eq_true hkeep).symm
  cases backend with
  | memory =>
    rw [AttachmentBackend.update, AttachmentRepository.update]
    split
    · rw [updateIn]
      split
      · exact h
      · split
        · refine h.put fun hid => ?_
          obtain ⟨item, hitem, howner⟩ := h
          rw [hown item hitem hid, howner]
        · exact h
    · exact h
  | postgres =>
    rw [AttachmentBackend.update]
    split
    · refine h.updateWhere fun row hrow hpicked => ?_
      simp only [Bool.and_eq_true, decide_eq_true_eq] at hpicked
      exact hown row hrow (hpicked.1.1.symm.trans (Table.key_of_get? hrow))
    · exact h

theorem delete (h : Owned s id messageId) (attachmentId : String) :
    Owned (backend.delete s attachmentId) id messageId := by
  cases backend with
  | memory =>
    rw [AttachmentBackend.delete, AttachmentRepository.delete]
    split
    · exact h
    · next item hitem =>
      refine h.put fun hid => ?_
      obtain ⟨other, hother, howner⟩ := h
      have hsame : item = other := by
        have hkey : attachmentId = id := (Table.key_of_get? hitem).symm.trans hid
        rw [hkey, hother] at hitem
        exact (Option.some.inj hitem).symm
      exact hsame ▸ howner
  | postgres => exact h.updateWhere fun _ _ _ => rfl

theorem step {w w' : AttachmentRun} {a : AttachmentStep} (h : Owned w.store id messageId)
    (hs : backend.step w a = some w') : Owned w'.store id messageId := by
  cases a with
  | associate call =>
    cases hs
    exact h.associateMany call
  | create attachment =>
    cases hs
    exact h.create
  | update attachment =>
    rw [AttachmentBackend.step] at hs
    split at hs
    · next hkeep =>
      cases hs
      exact h.update hkeep
    · cases hs
  | delete attachmentId =>
    cases hs
    exact h.delete attachmentId

end Owned

/-- Every attachment of a call that has returned True was free before, is in no other such call, and still has the
message of its call. -/
structure AttachmentRun.Settled (start : AttachmentRepository) (w : AttachmentRun) : Prop where
  kept : ∀ id messageId, Owned start id messageId → Owned w.store id messageId
  once : (w.associated.map Prod.fst).Nodup
  unowned : ∀ p ∈ w.associated, ∀ messageId, ¬Owned start p.1 messageId
  owned : ∀ p ∈ w.associated, Owned w.store p.1 p.2

theorem AttachmentRun.Settled.step {backend : AttachmentBackend} {start : AttachmentRepository} {w w' : AttachmentRun}
    {a : AttachmentStep} (h : w.Settled start) (hs : backend.step w a = some w') : w'.Settled start := by
  have hkept : ∀ id messageId, Owned start id messageId → Owned w'.store id messageId := fun id messageId hown =>
    (h.kept id messageId hown).step hs
  have hold : ∀ p ∈ w.associated, Owned w'.store p.1 p.2 := fun p hp => (h.owned p hp).step hs
  by_cases hsame : w'.associated = w.associated
  · exact ⟨hkept, hsame ▸ h.once, hsame ▸ h.unowned, hsame ▸ hold⟩
  · cases a with
    | associate call =>
      cases hs
      rw [backend.associateMany_eq] at hkept hold hsame ⊢
      split at hsame
      · next hallowed =>
        rw [if_pos hallowed] at hkept hold ⊢
        have hfree : ∀ id ∈ call.uniqueIds, ∀ messageId, ¬Owned w.store id messageId := by
          intro id hid messageId ⟨item, hitem, howner⟩
          obtain ⟨other, hother, hfree⟩ := hallowed id (mem_fromKeys.mp hid)
          rw [hitem] at hother
          cases hother
          simp [AssociateCall.free, AttachmentRepository.associable, howner] at hfree
        refine ⟨hkept, ?_, fun p hp messageId hown => ?_, fun p hp => ?_⟩
        · have hids : (call.uniqueIds.map (·, call.messageId)).map Prod.fst = call.uniqueIds := by
            rw [List.map_map]
            exact List.map_id _
          rw [if_pos rfl, map_append, hids, nodup_append]
          refine ⟨nodup_fromKeys _, h.once, fun id hid other hother heq => ?_⟩
          obtain ⟨p, hp, rfl⟩ := List.mem_map.mp hother
          exact hfree id hid p.2 (heq ▸ h.owned p hp)
        · obtain hnew | hp := mem_append.mp hp
          · obtain ⟨id, hid, rfl⟩ := List.mem_map.mp hnew
            exact hfree id hid messageId (h.kept id messageId hown)
          · exact h.unowned p hp messageId hown
        · obtain hnew | hp := mem_append.mp hp
          · obtain ⟨id, hid, rfl⟩ := List.mem_map.mp hnew
            obtain ⟨item, hitem, -⟩ := hallowed id (mem_fromKeys.mp hid)
            refine ⟨call.taken item, ?_, rfl⟩
            rw [AssociateCall.get?_mark, hitem, map_some, if_pos hid]
          · exact hold p hp
      · exact absurd rfl hsame
    | update attachment =>
      rw [AttachmentBackend.step] at hs
      split at hs
      · cases hs
        exact absurd rfl hsame
      · cases hs
    | create attachment | delete attachmentId =>
      cases hs
      exact absurd rfl hsame

end SelericSwarm
