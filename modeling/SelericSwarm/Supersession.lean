import SelericSwarm.MemoryValidity
import Mathlib.Logic.Relation

/-! Which memory takes the place of which: candidates that contradict a stored memory,
and the confirmations that put them in its place. -/
open Option

namespace SelericSwarm
open Keyed

inductive SupersessionStep where
  | create (body : CreateMemoryRequest) (workspaceId ownerUserId id : String) (ownsThread : Bool)
      (sources : Except MemoryError Unit) (now : Moment)
  | ingest (candidates : List ValidMemory) (now : Moment)
  | request (memoryId workspaceId ownerUserId : String) (request : MemoryRequest) (now : Moment)

namespace MemoryStore

def step (texts : MemoryTexts) (s : MemoryStore) : SupersessionStep → Option MemoryStore
  | .create body workspaceId ownerUserId id ownsThread sources now =>
    some (s.createMemory texts body workspaceId ownerUserId id ownsThread sources now).2
  | .ingest candidates now => some (s.ingestCandidates texts now (candidates.map Subtype.val)).2
  | .request memoryId workspaceId ownerUserId request now =>
    some (s.serve texts memoryId workspaceId ownerUserId request now).2

def Supersedes (s : MemoryStore) (newer older : String) : Prop :=
  ∃ m, s.items.get? newer = some m ∧ m.supersedesId = some older

end MemoryStore

/-- Candidates come with ids and without links of their own, and a memory is confirmed
that nothing has superseded and whose validity has begun and not ended. -/
def SupersessionStep.Orderly (s : MemoryStore) : SupersessionStep → Prop
  | .create _ _ _ id _ _ _ => id ≠ ""
  | .ingest candidates _ => ∀ c ∈ candidates, c.val.id ≠ "" ∧ c.val.supersedesId = none ∧
    c.val.supersededById = none
  | .request memoryId workspaceId ownerUserId .confirm now =>
    ∀ m, s.get memoryId workspaceId ownerUserId = some m →
      m.supersededById = none ∧ m.validFrom.all (· ≤ now) = true ∧ m.validTo.all (now < ·) = true
  | .request _ _ _ _ _ => True

instance (s : MemoryStore) (a : SupersessionStep) : Decidable (a.Orderly s) :=
  match a with
  | .create _ _ _ id _ _ _ => inferInstanceAs (Decidable (id ≠ ""))
  | .ingest candidates _ => inferInstanceAs (Decidable (∀ c ∈ candidates, c.val.id ≠ "" ∧
    c.val.supersedesId = none ∧ c.val.supersededById = none))
  | .request memoryId workspaceId ownerUserId .confirm now =>
    decidable_of_iff ((s.get memoryId workspaceId ownerUserId).all fun m =>
      m.supersededById = none && m.validFrom.all (· ≤ now) && m.validTo.all (now < ·)) <| by
        cases h : s.get memoryId workspaceId ownerUserId <;>
          simp only [SupersessionStep.Orderly, h, all_none, all_some, Bool.and_eq_true,
            decide_eq_true_eq, and_assoc, reduceCtorEq, false_imp_iff, implies_true, Option.some.injEq,
            forall_eq']
  | .request _ _ _ (.patch _) _ | .request _ _ _ (.pin _) _ | .request _ _ _ (.move _ _) _
  | .request _ _ _ .archive _ | .request _ _ _ (.revoke _) _ | .request _ _ _ .delete _ => isTrue trivial

/-! Records and what replaces them. -/

namespace StoredMemory
variable {m e : StoredMemory} {now : Moment}

/-- Superseded or deleted. -/
def Out (m : StoredMemory) : Prop :=
  m.status ≠ .active ∧ (m.supersededById.isSome = true ∨ m.deletedAt.isSome = true ∨ m.status = .deleted)

/-- A later state of one record, which stays out when it is out. -/
structure Follows (m e : StoredMemory) : Prop where
  id : e.id = m.id
  workspaceId : e.workspaceId = m.workspaceId
  ownerUserId : e.ownerUserId = m.ownerUserId
  supersedesId : e.supersedesId = m.supersedesId
  ended : (m.supersededById.isSome = true → m.status ≠ .active) →
    e.supersededById.isSome = true → e.status ≠ .active
  buried : (m.deletedAt.isSome = true → m.status ≠ .active) → e.deletedAt.isSome = true → e.status ≠ .active
  out : m.Out → e.Out

section
variable (hid : e.id = m.id) (hworkspace : e.workspaceId = m.workspaceId) (howner : e.ownerUserId = m.ownerUserId)
  (hsupersedes : e.supersedesId = m.supersedesId)
include hid hworkspace howner hsupersedes

/-- A change of other fields. -/
theorem Follows.of_same (hsuperseded : e.supersededById = m.supersededById) (hdeleted : e.deletedAt = m.deletedAt)
    (hstatus : e.status = m.status) : m.Follows e where
  id := hid
  workspaceId := hworkspace
  ownerUserId := howner
  supersedesId := hsupersedes
  ended := by rw [hsuperseded, hstatus]; exact fun h => h
  buried := by rw [hdeleted, hstatus]; exact fun h => h
  out := by rw [Out, Out, hsuperseded, hdeleted, hstatus]; exact fun h => h

theorem Follows.of_ended (hlive : m.deletedAt = none ∧ m.status ≠ .deleted) (hended : e.status ≠ .active)
    (hsuperseded : m.supersededById.isSome = true → e.supersededById.isSome = true) : m.Follows e where
  id := hid
  workspaceId := hworkspace
  ownerUserId := howner
  supersedesId := hsupersedes
  ended := fun _ _ => hended
  buried := fun _ _ => hended
  out := by
    rintro ⟨-, h | h | h⟩
    · exact ⟨hended, Or.inl (hsuperseded h)⟩
    · simp [hlive.1] at h
    · exact absurd h hlive.2

end

theorem follows_confirmedAt (hlive : m.deletedAt = none ∧ m.status ≠ .deleted)
    (hfree : m.supersededById = none) : m.Follows (m.confirmedAt now) where
  id := rfl
  workspaceId := rfl
  ownerUserId := rfl
  supersedesId := rfl
  ended := by simp [confirmedAt, hfree]
  buried := by simp [confirmedAt, hlive.1]
  out := by
    rintro ⟨-, h | h | h⟩
    · simp [hfree] at h
    · simp [hlive.1] at h
    · exact absurd h hlive.2

theorem out_supersededBy (m : StoredMemory) (id : String) (now : Moment) : (m.supersededBy id now).Out :=
  ⟨nofun, Or.inl rfl⟩

theorem follows_edit {texts : MemoryTexts} {request : MemoryRequest}
    (hlive : m.deletedAt = none ∧ m.status ≠ .deleted) (hrequest : request ≠ .confirm)
    (he : request.edit texts now m = .ok e) : m.Follows e ∧ (e.status = .active → m.status = .active) := by
  cases request with
  | confirm => exact absurd rfl hrequest
  | patch body =>
    simp only [MemoryRequest.edit, patched] at he
    split at he
    · obtain rfl := Except.ok.inj he
      exact ⟨.of_same rfl rfl rfl rfl rfl rfl rfl, fun h => h⟩
    · cases he
    · obtain rfl := Except.ok.inj he
      exact ⟨.of_same rfl rfl rfl rfl rfl rfl rfl, fun h => h⟩
  | move body ownsThread =>
    simp only [MemoryRequest.edit] at he
    cases hc : MemoryRequest.checkScope body.scope body.projectId body.threadId ownsThread with
    | error error =>
      rw [hc] at he
      cases he
    | ok =>
      rw [hc] at he
      obtain rfl := Except.ok.inj he
      exact ⟨.of_same rfl rfl rfl rfl rfl rfl rfl, fun h => h⟩
  | pin pinned =>
    obtain rfl := Except.ok.inj he
    exact ⟨.of_same rfl rfl rfl rfl rfl rfl rfl, fun h => h⟩
  | archive | revoke | delete =>
    obtain rfl := Except.ok.inj he
    exact ⟨.of_ended rfl rfl rfl rfl hlive (fun hactive => by cases hactive) fun h => h, fun hactive => by cases hactive⟩

end StoredMemory

/-! The invariant of the links. -/

namespace MemoryStore
variable {s s' : MemoryStore} {m e : StoredMemory} {texts : MemoryTexts} {now : Moment}

/-- Every link leads to an older record of the same owner, which is out when the newer one is active. -/
structure Consistent (s : MemoryStore) : Prop where
  named : ∀ id m, s.items.get? id = some m → id ≠ ""
  ended : ∀ id m, s.items.get? id = some m → m.supersededById.isSome = true → m.status ≠ .active
  linked : ∀ id m, s.items.get? id = some m → ∀ older, m.supersedesId = some older →
    ∃ prior, s.items.get? older = some prior ∧ prior.workspaceId = m.workspaceId ∧
      prior.ownerUserId = m.ownerUserId ∧ (prior.deletedAt.isSome = true → prior.status ≠ .active)
  replaced : ∀ id m, s.items.get? id = some m → m.status = .active → ∀ older, m.supersedesId = some older →
    ∃ prior, s.items.get? older = some prior ∧ prior.Out
  ranked : ∃ rank : String → Nat, ∀ newer older, s.Supersedes newer older → rank older < rank newer

theorem Consistent.empty : Consistent {} where
  named := by simp
  ended := by simp
  linked := by simp
  replaced := by simp
  ranked := ⟨fun _ => 0, by simp [Supersedes]⟩

theorem Consistent.congr (h : Consistent s) (hsame : ∀ id, s'.items.get? id = s.items.get? id) :
    Consistent s' := by
  obtain ⟨hnamed, hended, hlinked, hreplaced, hranked⟩ := h
  constructor <;> simpa only [Supersedes, hsame]

/-- Links lead to older records, so none leads back. -/
theorem Consistent.acyclic (h : Consistent s) (id : String) : ¬ Relation.TransGen s.Supersedes id id := by
  obtain ⟨rank, hrank⟩ := h.ranked
  have holder : ∀ older, Relation.TransGen s.Supersedes id older → rank older < rank id := by
    intro older hl
    induction hl with
    | single hl => exact hrank id _ hl
    | tail _ hl ih => exact (hrank _ _ hl).trans ih
  exact fun hcycle => lt_irrefl _ (holder id hcycle)

/-- A record is replaced by a later state of itself. -/
theorem Consistent.put (h : Consistent s) (hm : s.items.get? m.id = some m) (hf : m.Follows e)
    (hactive : e.status = .active → m.status = .active ∨
      ∀ older, e.supersedesId = some older → ∃ prior, s.items.get? older = some prior ∧ prior.Out) :
    Consistent { s with items := s.items.put e } := by
  have hput : ∀ id, (s.items.put e).get? id = if m.id = id then some e else s.items.get? id := by
    intro id
    rw [Table.get?_put, hf.id]
  -- a stored record is one that was stored, or the new state of `m`
  have hstored : ∀ id n, (s.items.put e).get? id = some n →
      ∃ n', s.items.get? id = some n' ∧ (n = n' ∨ n' = m ∧ n = e) := by
    intro id n hn
    rw [hput] at hn
    by_cases hid : m.id = id
    · rw [if_pos hid] at hn
      exact ⟨m, hid ▸ hm, Or.inr ⟨rfl, (Option.some.inj hn).symm⟩⟩
    · rw [if_neg hid] at hn
      exact ⟨n, hn, Or.inl rfl⟩
  have hfound : ∀ id n, s.items.get? id = some n →
      ∃ n', (s.items.put e).get? id = some n' ∧ (n' = n ∨ n = m ∧ n' = e) := by
    intro id n hn
    rw [hput]
    by_cases hid : m.id = id
    · subst hid
      exact ⟨e, if_pos rfl, Or.inr ⟨Option.some.inj (hn.symm.trans hm), rfl⟩⟩
    · exact ⟨n, by rw [if_neg hid, hn], Or.inl rfl⟩
  have hlink : ∀ id n, (s.items.put e).get? id = some n → ∃ n', s.items.get? id = some n' ∧
      n.supersedesId = n'.supersedesId ∧ n.workspaceId = n'.workspaceId ∧ n.ownerUserId = n'.ownerUserId := by
    intro id n hn
    obtain ⟨n', hn', rfl | ⟨rfl, rfl⟩⟩ := hstored id n hn
    · exact ⟨n, hn', rfl, rfl, rfl⟩
    · exact ⟨n', hn', hf.supersedesId, hf.workspaceId, hf.ownerUserId⟩
  have hout : ∀ older, (∃ prior, s.items.get? older = some prior ∧ prior.Out) →
      ∃ prior, (s.items.put e).get? older = some prior ∧ prior.Out := by
    rintro older ⟨prior, hp, ho⟩
    obtain ⟨prior', hp', rfl | ⟨rfl, rfl⟩⟩ := hfound older prior hp
    · exact ⟨prior', hp', ho⟩
    · exact ⟨prior', hp', hf.out ho⟩
  refine { named := ?_, ended := ?_, linked := ?_, replaced := ?_, ranked := ?_ }
  · intro id n hn
    obtain ⟨n', hn', -⟩ := hstored id n hn
    exact h.named id n' hn'
  · intro id n hn
    obtain ⟨n', hn', rfl | ⟨rfl, rfl⟩⟩ := hstored id n hn
    · exact h.ended id n hn'
    · exact hf.ended (h.ended id n' hn')
  · intro id n hn older holder
    obtain ⟨n', hn', hsupersedes, hworkspace, howner⟩ := hlink id n hn
    obtain ⟨prior, hp, hw, ho, hburied⟩ := h.linked id n' hn' older (hsupersedes ▸ holder)
    obtain ⟨prior', hp', rfl | ⟨rfl, rfl⟩⟩ := hfound older prior hp
    · exact ⟨prior', hp', hw.trans hworkspace.symm, ho.trans howner.symm, hburied⟩
    · exact ⟨prior', hp', (hf.workspaceId.trans hw).trans hworkspace.symm,
        (hf.ownerUserId.trans ho).trans howner.symm, hf.buried hburied⟩
  · intro id n hn hstatus older holder
    obtain ⟨n', hn', rfl | ⟨rfl, rfl⟩⟩ := hstored id n hn
    · exact hout older (h.replaced id n hn' hstatus older holder)
    · obtain hstatus | hresolved := hactive hstatus
      · exact hout older (h.replaced id n' hn' hstatus older (hf.supersedesId ▸ holder))
      · exact hout older (hresolved older holder)
  · obtain ⟨rank, hrank⟩ := h.ranked
    refine ⟨rank, ?_⟩
    rintro newer older ⟨n, hn, holder⟩
    obtain ⟨n', hn', hsupersedes, -, -⟩ := hlink newer n hn
    exact hrank newer older ⟨n', hn', hsupersedes ▸ holder⟩

theorem Consistent.update (h : Consistent s) (hm : s.items.get? m.id = some m) (hf : m.Follows e)
    (hactive : e.status = .active → m.status = .active) : Consistent (s.update e).2 := by
  obtain he | ⟨-, he⟩ := s.update_cases e
  · rwa [he]
  · rw [he]
    exact h.put hm hf fun hstatus => Or.inl (hactive hstatus)

/-- A new record links to nothing, or is inactive and links to one that is stored. -/
theorem Consistent.create (h : Consistent s) (hid : m.id ≠ "") (hfree : m.supersededById = none)
    (hlink : ∀ older, m.supersedesId = some older → m.status ≠ .active ∧
      ∃ prior, s.items.get? older = some prior ∧ prior.workspaceId = m.workspaceId ∧
        prior.ownerUserId = m.ownerUserId ∧ prior.deletedAt = none) : Consistent (s.create m).2 := by
  cases hg : s.items.get? m.id with
  | some stored =>
    have hsame : (s.create m).2 = s := by simp [MemoryStore.create, Table.setdefault_of_get? hg]
    rwa [hsame]
  | none =>
    have hput : ∀ id, (s.create m).2.items.get? id = if m.id = id then some m else s.items.get? id := by
      intro id
      rw [MemoryStore.create, Table.setdefault_of_none hg, Table.get?_put]
    have hold : ∀ id n, s.items.get? id = some n → m.id ≠ id := by
      rintro id n hn rfl
      simp [hg] at hn
    have hkept : ∀ id n, s.items.get? id = some n → (s.create m).2.items.get? id = some n := by
      intro id n hn
      rw [hput, if_neg (hold id n hn), hn]
    have hstored : ∀ id n, (s.create m).2.items.get? id = some n →
        m.id = id ∧ n = m ∨ s.items.get? id = some n := by
      intro id n hn
      rw [hput] at hn
      by_cases hid : m.id = id
      · rw [if_pos hid] at hn
        exact Or.inl ⟨hid, (Option.some.inj hn).symm⟩
      · rw [if_neg hid] at hn
        exact Or.inr hn
    refine { named := ?_, ended := ?_, linked := ?_, replaced := ?_, ranked := ?_ }
    · intro id n hn
      obtain ⟨rfl, -⟩ | hn := hstored id n hn
      · exact hid
      · exact h.named id n hn
    · intro id n hn
      obtain ⟨-, rfl⟩ | hn := hstored id n hn
      · simp [hfree]
      · exact h.ended id n hn
    · intro id n hn older holder
      obtain ⟨-, rfl⟩ | hn := hstored id n hn
      · obtain ⟨-, prior, hp, hw, ho, hdeleted⟩ := hlink older holder
        exact ⟨prior, hkept older prior hp, hw, ho, by simp [hdeleted]⟩
      · obtain ⟨prior, hp, hrest⟩ := h.linked id n hn older holder
        exact ⟨prior, hkept older prior hp, hrest⟩
    · intro id n hn hstatus older holder
      obtain ⟨-, rfl⟩ | hn := hstored id n hn
      · exact absurd hstatus (hlink older holder).1
      · obtain ⟨prior, hp, hout⟩ := h.replaced id n hn hstatus older holder
        exact ⟨prior, hkept older prior hp, hout⟩
    · obtain ⟨rank, hrank⟩ := h.ranked
      -- the new record ranks above the one it links to
      refine ⟨Function.update rank m.id ((m.supersedesId.elim 0 rank) + 1), ?_⟩
      rintro newer older ⟨n, hn, holder⟩
      obtain ⟨rfl, rfl⟩ | hn := hstored newer n hn
      · obtain ⟨-, prior, hp, -⟩ := hlink older holder
        rw [Function.update_self, Function.update_of_ne (hold older prior hp).symm, holder]
        exact Nat.lt_succ_self _
      · obtain ⟨prior, hp, -⟩ := h.linked newer n hn older holder
        rw [Function.update_of_ne (hold older prior hp).symm, Function.update_of_ne (hold newer n hn).symm]
        exact hrank newer older ⟨n, hn, holder⟩

/-! The operations. -/

variable {workspaceId ownerUserId : String}

theorem get_facts {memoryId : String} (h : s.get memoryId workspaceId ownerUserId = some m) :
    s.items.get? m.id = some m ∧ m.id = memoryId ∧ m.workspaceId = workspaceId ∧ m.ownerUserId = ownerUserId ∧
      m.deletedAt = none ∧ m.status ≠ .deleted := by
  obtain ⟨hstored, hvisible⟩ := get_eq_some_iff.mp h
  have hid := Table.key_of_get? hstored
  simp only [visible, Bool.and_eq_true, decide_eq_true_eq] at hvisible
  obtain ⟨⟨⟨hworkspace, howner⟩, hdeleted⟩, hstatus⟩ := hvisible
  exact ⟨by rw [hid, hstored], hid, hworkspace, howner, hdeleted, hstatus⟩

theorem Consistent.confirm (h : Consistent s) {memoryId : String}
    (hg : s.get memoryId workspaceId ownerUserId = some m) (hfree : m.supersededById = none) (now : Moment) :
    Consistent (supersedePrior { s with items := s.items.put (m.confirmedAt now) } (m.confirmedAt now) now) ∧
      (supersedePrior { s with items := s.items.put (m.confirmedAt now) } (m.confirmedAt now) now).items.get? m.id =
        some (m.confirmedAt now) := by
  obtain ⟨hm, -, rfl, rfl, hlive⟩ := get_facts hg
  have hfollows : m.Follows (m.confirmedAt now) := StoredMemory.follows_confirmedAt hlive hfree
  have hother : ∀ older, m.supersedesId = some older → older ≠ m.id := by
    rintro older holder rfl
    exact h.acyclic m.id (Relation.TransGen.single ⟨m, hm, holder⟩)
  obtain ⟨hnone, he⟩ | ⟨prior, hsome, he⟩ := supersedePrior_cases
      { s with items := s.items.put (m.confirmedAt now) } (m.confirmedAt now) now
  · rw [he]
    refine ⟨h.put hm hfollows fun _ => Or.inr fun older holder => ?_,
      Table.get?_put_self s.items (m.confirmedAt now)⟩
    have holder : m.supersedesId = some older := holder
    -- the older record is stored, so it was not found because it is deleted
    obtain ⟨prior, hp, hw, ho, hburied⟩ := h.linked m.id m hm older holder
    refine ⟨prior, hp, ?_⟩
    have htruthy : truthy m.supersedesId = some older := by
      simp [holder, truthy, Option.filter, h.named older prior hp]
    have hhidden : s.get older m.workspaceId m.ownerUserId = none := by
      rw [MemoryStore.prior, show (m.confirmedAt now).supersedesId = m.supersedesId from rfl, htruthy,
        bind_some] at hnone
      have := get_put_confirmedAt hg now older
      rw [if_neg (hother older holder).symm] at this
      exact this.symm.trans hnone
    have hinvisible : visible m.workspaceId m.ownerUserId prior = false := by
      simpa [MemoryStore.get, hp, Option.filter] using hhidden
    by_cases hdeleted : prior.deletedAt = none
    · have hstatus : prior.status = .deleted := by
        simpa [visible, hw, ho, hdeleted] using hinvisible
      exact ⟨by simp [hstatus], Or.inr (Or.inr hstatus)⟩
    · have hsome := isSome_iff_ne_none.mpr hdeleted
      exact ⟨hburied hsome, Or.inr (Or.inl hsome)⟩
  · obtain ⟨older, holder, hg'⟩ := bind_eq_some_iff.mp hsome
    have holder : m.supersedesId = some older := (filter_eq_some_iff.mp holder).1
    have hne := hother older holder
    have hgs : s.get older m.workspaceId m.ownerUserId = some prior := by
      have := get_put_confirmedAt hg now older
      rw [if_neg hne.symm] at this
      exact this.symm.trans hg'
    obtain ⟨hp, rfl, -, -, hplive⟩ := get_facts hgs
    -- the order of the two writes makes no difference
    have hprior : Consistent { s with items := s.items.put (prior.supersededBy m.id now) } :=
      h.put hp (.of_ended rfl rfl rfl rfl hplive (by simp [StoredMemory.supersededBy]) fun _ => rfl)
        (by simp [StoredMemory.supersededBy])
    have hconfirmed := hprior.put (m := m) (e := m.confirmedAt now)
      (by rw [Table.get?_put_of_ne _ (show (prior.supersededBy m.id now).id ≠ m.id from hne), hm]) hfollows
      fun _ => Or.inr fun older' holder' => by
        obtain rfl := Option.some.inj (holder.symm.trans holder')
        exact ⟨_, Table.get?_put_self s.items (prior.supersededBy m.id now), prior.out_supersededBy m.id now⟩
    rw [he]
    constructor
    · refine hconfirmed.congr fun id => ?_
      dsimp only
      rw [Table.get?_put, Table.get?_put, Table.get?_put, Table.get?_put]
      by_cases hid : m.id = id
      · subst hid
        simp [StoredMemory.supersededBy, StoredMemory.confirmedAt, hne]
      · simp [StoredMemory.confirmedAt, hid]
    · dsimp only
      rw [Table.get?_put_of_ne _ (show (prior.supersededBy _ now).id ≠ m.id from hne)]
      exact Table.get?_put_self s.items (m.confirmedAt now)

theorem Consistent.ingestCandidates (h : Consistent s) {candidates : List ValidMemory}
    (hc : ∀ c ∈ candidates, c.val.id ≠ "" ∧ c.val.supersedesId = none ∧ c.val.supersededById = none) :
    Consistent (s.ingestCandidates texts now (candidates.map Subtype.val)).2 := by
  apply ingestCandidates_induct (I := Consistent) _ h
  intro s candidate created s' hmem hs hstep
  obtain ⟨c, hc', rfl⟩ := List.mem_map.mp hmem
  obtain ⟨hid, hnone, hfree⟩ := hc c hc'
  obtain rfl | ⟨duplicate, observed, hmem, ho, rfl⟩ | rfl | ⟨conflict, hmem, hw, ho, hdeleted, rfl⟩ :=
      ingestCandidate_cases hstep
  · exact hs
  · obtain ⟨messageIds, evidenceIds, provenance, rfl⟩ := observed_eq ho
    exact hs.update (Table.get?_of_mem hmem) (.of_same rfl rfl rfl rfl rfl rfl rfl) fun hstatus => hstatus
  · refine hs.create hid hfree fun older holder => ?_
    have holder : c.val.supersedesId = some older := holder
    rw [hnone] at holder
    cases holder
  · refine hs.create hid hfree fun older holder => ⟨nofun, conflict, ?_, hw, ho, hdeleted⟩
    obtain rfl := Option.some.inj holder
    exact Table.get?_of_mem hmem

theorem Consistent.step (h : Consistent s) {a : SupersessionStep} (ha : a.Orderly s)
    (hs : s.step texts a = some s') : Consistent s' := by
  cases a with
  | create body workspaceId ownerUserId id ownsThread sources now =>
    obtain rfl := Option.some.inj hs
    unfold MemoryStore.createMemory
    split
    · exact h
    · dsimp only
      split
      · exact h
      · split
        · exact h.create ha rfl nofun
        · exact h
  | ingest candidates now =>
    obtain rfl := Option.some.inj hs
    exact h.ingestCandidates ha
  | request memoryId workspaceId ownerUserId request now =>
    obtain rfl := Option.some.inj hs
    obtain ⟨he, -⟩ | ⟨memory, edited, hg, hedit, he⟩ :=
        s.serve_cases texts memoryId workspaceId ownerUserId request now
    · rwa [he]
    · obtain ⟨hm, -, -, -, hlive⟩ := get_facts hg
      rw [he]
      cases request with
      | confirm =>
        obtain rfl := Except.ok.inj hedit
        exact (h.confirm hg (ha memory hg).1 now).1
      | patch | pin | move | archive | revoke | delete =>
        obtain ⟨hfollows, hactive⟩ := StoredMemory.follows_edit hlive (by simp) hedit
        exact h.put hm hfollows fun hstatus => Or.inl (hactive hstatus)

/-- A listing that is long enough shows every record that it does not filter out. -/
theorem mem_list_of_listed {projectId threadId : Option String} {includeInactive : Bool} {limit : Int}
    (hm : m ∈ s.items.rows)
    (hlisted : listed workspaceId ownerUserId projectId threadId includeInactive now m = true)
    (hlimit : ((s.items.rows.filter
      (listed workspaceId ownerUserId projectId threadId includeInactive now)).length : Int) ≤ limit) :
    m ∈ s.list workspaceId ownerUserId projectId threadId includeInactive limit now := by
  have hlength : (s.items.rows.filter
      (listed workspaceId ownerUserId projectId threadId includeInactive now)).length ≤ (max 1 limit).toNat := by
    omega
  rw [list, List.take_of_length_le (by rwa [List.length_insertionSort])]
  exact (List.mem_insertionSort _).mpr (List.mem_filter.mpr ⟨hm, hlisted⟩)

theorem Consistent.confirmed_listed (h : Consistent s) {memoryId : String}
    (hg : s.get memoryId workspaceId ownerUserId = some m)
    (ha : (SupersessionStep.request memoryId workspaceId ownerUserId .confirm now).Orderly s) {now' : Moment}
    (hlater : now ≤ now') (hto : m.validTo.all (now' < ·) = true) (hexpires : m.expiresAt.all (now' < ·) = true)
    {limit : Int} {s' : MemoryStore}
    (hs : s.step texts (.request memoryId workspaceId ownerUserId .confirm now) = some s')
    (hlimit : ((s'.items.rows.filter (listed workspaceId ownerUserId none none false now')).length : Int) ≤ limit) :
    ∃ confirmed ∈ s'.list workspaceId ownerUserId none none false limit now',
      confirmed.id = memoryId ∧ confirmed.status = .active := by
  obtain ⟨hfree, hfrom, -⟩ := ha m hg
  obtain ⟨-, hid, hworkspace, howner, hdeleted, -⟩ := get_facts hg
  have hstored := (h.confirm hg hfree now).2
  have hfrom' : m.validFrom.all (· ≤ now') = true := by
    cases hv : m.validFrom with
    | none => rfl
    | some start =>
      have hstart : start ≤ now := by simpa [hv] using hfrom
      simpa using hstart.trans hlater
  obtain rfl := Option.some.inj hs
  obtain ⟨he, hrefused⟩ | ⟨memory, edited, hg', hedit, he⟩ :=
      s.serve_cases texts memoryId workspaceId ownerUserId .confirm now
  · obtain ⟨error, herror⟩ := hrefused m hg
    cases herror
  · obtain rfl := Option.some.inj (hg.symm.trans hg')
    obtain rfl := Except.ok.inj hedit
    refine ⟨m.confirmedAt now, mem_list_of_listed ?_ ?_ hlimit, hid, rfl⟩
    · rw [he]
      exact Table.mem_of_get? hstored
    · simp [listed, effectiveAt, StoredMemory.confirmedAt, hworkspace, howner, hdeleted, hfrom', hto, hexpires]

/-- In a run that confirms only memories that nothing has superseded and whose validity
has not ended, a superseded memory is inactive, no active memory supersedes another, no chain
of links comes back, and a memory just confirmed is listed as active. -/
theorem supersession_consistent (texts : MemoryTexts) (steps : List SupersessionStep)
    (h : Machine.Along (step texts) (fun s a => a.Orderly s) {} steps) :
    ∀ before after s, steps = before ++ after → Machine.exec (step texts) {} before = some s →
      (∀ b ∈ s.items.rows, b.supersededById.isSome = true → b.status ≠ .active) ∧
      (∀ a ∈ s.items.rows, ∀ b ∈ s.items.rows, a.status = .active → a.supersedesId = some b.id →
        b.status ≠ .active) ∧
      (∀ id, ¬ Relation.TransGen s.Supersedes id id) ∧
      ∀ memoryId workspaceId ownerUserId now s',
        after.head? = some (.request memoryId workspaceId ownerUserId .confirm now) →
        s.step texts (.request memoryId workspaceId ownerUserId .confirm now) = some s' →
        ∀ m, s.get memoryId workspaceId ownerUserId = some m →
          ∀ now', now ≤ now' → m.validTo.all (now' < ·) = true → m.expiresAt.all (now' < ·) = true →
            ∀ limit : Int,
              ((s'.items.rows.filter (listed workspaceId ownerUserId none none false now')).length : Int) ≤ limit →
              ∃ confirmed ∈ s'.list workspaceId ownerUserId none none false limit now',
                confirmed.id = memoryId ∧ confirmed.status = .active := by
  rintro before after s rfl he
  obtain ⟨hbefore, hafter⟩ := Machine.along_append.mp h
  have hs : Consistent s := Machine.invariant_along (I := Consistent)
    (fun _ _ _ h ha hs => h.step ha hs) .empty hbefore he
  refine ⟨?_, ?_, hs.acyclic, ?_⟩
  · exact fun b hb => hs.ended b.id b (Table.get?_of_mem hb)
  · intro a ha b hb hactive holder
    obtain ⟨prior, hp, hout, -⟩ := hs.replaced a.id a (Table.get?_of_mem ha) hactive b.id holder
    obtain rfl := Option.some.inj (hp.symm.trans (Table.get?_of_mem hb))
    exact hout
  · intro memoryId workspaceId ownerUserId now s' hhead hstep m hg now' hlater hto hexpires limit hlimit
    obtain ⟨rest, rfl⟩ := List.head?_eq_some_iff.mp hhead
    exact hs.confirmed_listed hg (hafter s he).1 hlater hto hexpires hstep hlimit

/-! A preference that is revised, and one that is confirmed again after it has been replaced. -/

section Revised
open MemorySession (plainTexts)

def statement (id content : String) (now : Moment) : ValidMemory :=
  ⟨{ id, workspaceId := "w", ownerUserId := "u", scope := .user, type := some .preference
     content := .text content, structuredData := Dict.empty.set "subject_key" (.str "subject")
     confidence := some (9 / 10), createdAt := now, updatedAt := now }, by
    simp [StoredMemory.valid, StoredMemory.typed, StoredMemory.unit, StoredMemory.placed, StoredMemory.consented,
      StoredMemory.ordered]
    norm_num⟩

def revised : List SupersessionStep :=
  [.ingest [statement "a" "dark" 0] 0, .request "a" "w" "u" .confirm 1,
    .ingest [statement "b" "not" 2] 2, .request "b" "w" "u" .confirm 3]

theorem revised_consistent :
    ∃ s s', Machine.exec (step plainTexts) {} (revised.take 3) = some s ∧
      s.step plainTexts (.request "b" "w" "u" .confirm 3) = some s' ∧
      (∀ a ∈ s.items.rows, ∀ b ∈ s.items.rows, a.status = .active → a.supersedesId = some b.id →
        b.status ≠ .active) ∧
      (∀ id, ¬ Relation.TransGen s.Supersedes id id) ∧
      ∃ confirmed ∈ s'.list "w" "u" none none false 2 3, confirmed.id = "b" ∧ confirmed.status = .active := by
  have hrun : ((Machine.exec (step plainTexts) {} (revised.take 3)).any fun s =>
      (s.step plainTexts (.request "b" "w" "u" .confirm 3)).any fun s' =>
        (s.get "b" "w" "u").any fun m => m.validTo.all (3 < ·) && m.expiresAt.all (3 < ·) &&
          decide ((s'.items.rows.filter (listed "w" "u" none none false 3)).length ≤ 2)) = true := by
    decide
  obtain ⟨s, he, hs⟩ := (Option.any_eq_true _ _).mp hrun
  obtain ⟨s', hstep, hs'⟩ := (Option.any_eq_true _ _).mp hs
  obtain ⟨m, hm, hopen⟩ := (Option.any_eq_true _ _).mp hs'
  obtain ⟨⟨hto, hexpires⟩, hfew⟩ : (m.validTo.all (3 < ·) = true ∧ m.expiresAt.all (3 < ·) = true) ∧
      (s'.items.rows.filter (listed "w" "u" none none false 3)).length ≤ 2 := by
    simpa only [Bool.and_eq_true, decide_eq_true_eq] using hopen
  obtain ⟨-, hreplaced, hacyclic, hlisted⟩ :=
    supersession_consistent plainTexts revised (by decide) (revised.take 3) (revised.drop 3) s rfl he
  exact ⟨s, s', he, hstep, hreplaced, hacyclic,
    hlisted "b" "w" "u" 3 s' rfl hstep m hm 3 le_rfl hto hexpires 2 (by exact_mod_cast hfew)⟩

def reconfirmed : List SupersessionStep := revised ++ [.request "a" "w" "u" .confirm 4]

theorem reconfirmed_active :
    ¬ ∀ before after s, reconfirmed = before ++ after → Machine.exec (step plainTexts) {} before = some s →
      ∀ b ∈ s.items.rows, b.supersededById.isSome = true → b.status ≠ .active := by
  intro h
  have hrun : ((Machine.exec (step plainTexts) {} reconfirmed).any fun s =>
      s.items.rows.any fun b => b.supersededById.isSome && b.status = .active) = true := by decide
  cases he : Machine.exec (step plainTexts) {} reconfirmed with
  | none => simp [he] at hrun
  | some s =>
    obtain ⟨b, hb, hsuperseded, hactive⟩ :
        ∃ b ∈ s.items.rows, b.supersededById.isSome = true ∧ b.status = .active := by simpa [he] using hrun
    exact h reconfirmed [] s (by simp) he b hb hsuperseded hactive

end Revised

end MemoryStore

end SelericSwarm
