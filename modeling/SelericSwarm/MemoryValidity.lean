import SelericSwarm.Machine
import SelericSwarm.Memories

/-! Every memory operation one after the other, and which of them leave only
memories in the store that would pass their own model's checks. -/
open Option

namespace SelericSwarm
open Keyed

/-- The store, and the memories that context builds have handed out. -/
structure MemorySession where
  store : MemoryStore := {}
  bundles : List (List StoredMemory) := []

inductive MemoryStep where
  | create (body : CreateMemoryRequest) (workspaceId ownerUserId id : String) (ownsThread : Bool)
      (sources : Except MemoryError Unit) (now : Moment)
  | request (memoryId workspaceId ownerUserId : String) (request : MemoryRequest) (now : Moment)
  | ingest (candidates : List ValidMemory) (now : Moment)
  | expire (workspaceId ownerUserId : String) (now : Moment)
  | setPreference (preference : MemoryPreference)
  | build (memoryIds : List String)
  | recordUsage (runId : String) (bundle : Nat) (now : Moment)

namespace MemorySession
variable (texts : MemoryTexts)

def step (s : MemorySession) : MemoryStep → Option MemorySession
  | .create body workspaceId ownerUserId id ownsThread sources now => some
    { s with store := (s.store.createMemory texts body workspaceId ownerUserId id ownsThread sources now).2 }
  | .request memoryId workspaceId ownerUserId request now => some
    { s with store := (s.store.serve texts memoryId workspaceId ownerUserId request now).2 }
  | .ingest candidates now => some
    { s with store := (s.store.ingestCandidates texts now (candidates.map Subtype.val)).2 }
  | .expire workspaceId ownerUserId now => some
    { s with store := (s.store.expire workspaceId ownerUserId now).2 }
  | .setPreference preference => some { s with store := s.store.setPreference preference }
  | .build memoryIds => some { s with bundles := s.bundles ++ [memoryIds.filterMap s.store.items.get?] }
  | .recordUsage runId bundle now => (s.bundles[bundle]?).map fun memories =>
    { s with store := s.store.recordUsage runId memories now }

end MemorySession

/-- The request sets nothing to null or to an empty id that the model requires,
and ends no memory before it begins. -/
def MemoryRequest.sound (memory : StoredMemory) (now : Moment) : MemoryRequest → Bool
  | .patch body => body.type.all (·.isSome) && body.confidence.all (·.isSome) && body.salience.all (·.isSome)
  | .move body _ => (body.scope ≠ .thread || body.threadId ≠ some "") &&
    (!(body.scope = .project || body.scope = .episodic) || body.projectId ≠ some "")
  | .revoke _ => memory.validFrom.all (· < now)
  | .pin _ | .confirm | .archive | .delete => true

def MemoryStore.endsPrior (s : MemoryStore) (memory : StoredMemory) (now : Moment) : MemoryRequest → Bool
  | .confirm => (s.prior memory).all (·.validFrom.all (· < now))
  | _ => true

def MemorySession.sound (texts : MemoryTexts) (s : MemorySession) : MemoryStep → Bool
  | .request memoryId workspaceId ownerUserId request now =>
    (s.store.get memoryId workspaceId ownerUserId).all fun memory =>
      !(request.edit texts now memory).isOk ||
        (request.sound memory now && s.store.endsPrior memory now request)
  | _ => true

/-! The checks after a change. -/

namespace StoredMemory
variable {m : StoredMemory} {now : Moment}

theorem valid_iff : m.valid = true ↔
    m.typed = true ∧ m.placed = true ∧ m.consented = true ∧ m.ordered = true := by
  simp [valid, and_assoc]

theorem valid_confirmedAt (h : m.valid = true) : (m.confirmedAt now).valid = true := by
  obtain ⟨htyped, hplaced, -, hordered⟩ := valid_iff.mp h
  exact valid_iff.mpr ⟨htyped, hplaced, by simp [consented, confirmedAt], hordered⟩

variable {edited : StoredMemory}

theorem valid_of_inactive (h : m.valid = true) (htyped : edited.typed = m.typed)
    (hplaced : edited.placed = m.placed) (hordered : edited.ordered = m.ordered) (hstatus : edited.status ≠ .active) :
    edited.valid = true := by
  obtain ⟨ht, hp, -, ho⟩ := valid_iff.mp h
  exact valid_iff.mpr ⟨htyped.trans ht, hplaced.trans hp, by simp [consented, hstatus], hordered.trans ho⟩

theorem valid_archived (h : m.valid = true) : (m.archived now).valid = true :=
  valid_of_inactive h rfl rfl rfl nofun

theorem valid_deleted (h : m.valid = true) : (m.deleted now).valid = true :=
  valid_of_inactive h rfl rfl rfl nofun

theorem valid_of_ended (h : m.valid = true) (htyped : edited.typed = m.typed) (hplaced : edited.placed = m.placed)
    (hstatus : edited.status ≠ .active) (hfrom : edited.validFrom = m.validFrom) (hto : edited.validTo = some now) :
    edited.valid = m.validFrom.all (· < now) := by
  obtain ⟨ht, hp, -, -⟩ := valid_iff.mp h
  simp [valid, htyped, ht, hplaced, hp, consented, hstatus, ordered, hfrom, hto]

theorem valid_supersededBy (h : m.valid = true) (id : String) :
    (m.supersededBy id now).valid = m.validFrom.all (· < now) :=
  valid_of_ended h rfl rfl nofun rfl rfl

theorem valid_revoked (texts : MemoryTexts) (h : m.valid = true) (reason : Option String) :
    (m.revoked texts reason now).valid = m.validFrom.all (· < now) :=
  valid_of_ended h rfl rfl nofun rfl rfl

theorem valid_movedTo (h : m.valid = true) (body : MoveMemoryRequest) :
    (m.movedTo body now).valid = (m.movedTo body now).placed := by
  obtain ⟨htyped, -, hconsented, hordered⟩ := valid_iff.mp h
  have htyped' : (m.movedTo body now).typed = true := htyped
  have hconsented' : (m.movedTo body now).consented = true := hconsented
  have hordered' : (m.movedTo body now).ordered = true := hordered
  simp [valid, htyped', hconsented', hordered']

theorem any_unit_of_sent {stored : Option ℚ} (h : stored.any unit = true)
    (sent : Option (Option UnitInterval)) :
    (sent.elim stored (·.map Subtype.val)).any unit = sent.all (·.isSome) := by
  match sent with
  | none => simpa using h
  | some none => rfl
  | some (some c) => simpa using c.2

theorem valid_of_changed {body : UpdateMemoryRequest} (h : m.valid = true)
    (htype : edited.type = body.type.getD m.type)
    (hconfidence : edited.confidence = body.confidence.elim m.confidence (·.map Subtype.val))
    (hsalience : edited.salience = body.salience.elim m.salience (·.map Subtype.val))
    (hplaced : edited.placed = m.placed) (hconsented : edited.consented = m.consented)
    (hordered : edited.ordered = m.ordered) : edited.valid = (MemoryRequest.patch body).sound m now := by
  obtain ⟨ht, hp, hc, ho⟩ := valid_iff.mp h
  obtain ⟨⟨htyped, hunit⟩, hunit'⟩ : (m.type.isSome = true ∧ m.confidence.any unit = true) ∧
      m.salience.any unit = true := by simpa [typed] using ht
  have hsome : (body.type.getD m.type).isSome = body.type.all (·.isSome) := by
    cases body.type <;> simp [htyped]
  rw [valid, typed, htype, hconfidence, hsalience, hsome, any_unit_of_sent hunit, any_unit_of_sent hunit',
    hplaced, hp, hconsented, hc, hordered, ho]
  simp [MemoryRequest.sound]

theorem valid_of_patched {texts : MemoryTexts} {body : UpdateMemoryRequest} (h : m.valid = true)
    (he : m.patched texts body now = .ok edited) : edited.valid = (MemoryRequest.patch body).sound m now := by
  simp only [patched] at he
  split at he
  · obtain rfl := Except.ok.inj he
    exact valid_of_changed h rfl rfl rfl rfl rfl rfl
  · cases he
  · obtain rfl := Except.ok.inj he
    exact valid_of_changed h rfl rfl rfl rfl rfl rfl

theorem placed_movedTo {body : MoveMemoryRequest} {ownsThread : Bool}
    (h : MemoryRequest.checkScope body.scope body.projectId body.threadId ownsThread = .ok ()) :
    (m.movedTo body now).placed = (MemoryRequest.move body ownsThread).sound m now := by
  have hthread : body.scope = .thread → body.threadId ≠ none := by
    intro hs hnone
    simp [MemoryRequest.checkScope, hs, hnone] at h
  have hproject : body.scope = .project ∨ body.scope = .episodic → body.projectId ≠ none := by
    intro hs hnone
    have hne : body.scope ≠ .thread := by
      rintro he
      simp [he] at hs
    simp [MemoryRequest.checkScope, hs, hnone, hne] at h
  have htruthy : ∀ id : Option String, id ≠ none → ((truthy id).isSome = true ↔ id ≠ some "") := by
    intro id hid
    cases id with
    | none => exact absurd rfl hid
    | some id => simp [truthy, Option.filter]
  rw [Bool.eq_iff_iff]
  cases hs : body.scope with
  | thread => simp [placed, movedTo, MemoryRequest.sound, hs, htruthy _ (hthread hs)]
  | user => simp [placed, movedTo, MemoryRequest.sound, hs]
  | project => simp [placed, movedTo, MemoryRequest.sound, hs, htruthy _ (hproject (Or.inl hs))]
  | episodic => simp [placed, movedTo, MemoryRequest.sound, hs, htruthy _ (hproject (Or.inr hs))]

theorem valid_of_edit {texts : MemoryTexts} {request : MemoryRequest} (h : m.valid = true)
    (he : request.edit texts now m = .ok edited) : edited.valid = request.sound m now := by
  cases request with
  | patch body => exact valid_of_patched h he
  | pin pinned =>
    obtain rfl := Except.ok.inj he
    exact h
  | confirm =>
    obtain rfl := Except.ok.inj he
    exact valid_confirmedAt h
  | move body ownsThread =>
    simp only [MemoryRequest.edit] at he
    cases hc : MemoryRequest.checkScope body.scope body.projectId body.threadId ownsThread with
    | error error =>
      rw [hc] at he
      cases he
    | ok =>
      rw [hc] at he
      obtain rfl := Except.ok.inj he
      exact (valid_movedTo h body).trans (placed_movedTo hc)
  | archive =>
    obtain rfl := Except.ok.inj he
    exact valid_archived h
  | revoke reason =>
    obtain rfl := Except.ok.inj he
    exact valid_revoked texts h reason
  | delete =>
    obtain rfl := Except.ok.inj he
    exact valid_deleted h

end StoredMemory

/-! The stored memories after an operation. -/

namespace MemoryStore
variable {s : MemoryStore} {texts : MemoryTexts} {now : Moment}

def AllValid (s : MemoryStore) : Prop := ∀ m ∈ s.items.rows, m.valid = true

variable {m : StoredMemory}

theorem AllValid.put (h : AllValid s) (hm : m.valid = true) : AllValid { s with items := s.items.put m } := by
  intro m' hm'
  obtain rfl | hm' := Table.mem_put hm'
  · exact hm
  · exact h m' hm'

theorem AllValid.put_iff (h : AllValid s) : AllValid { s with items := s.items.put m } ↔ m.valid = true :=
  ⟨fun hall => hall m (Table.mem_put_self s.items m), h.put⟩

theorem AllValid.create (h : AllValid s) (hm : m.valid = true) : AllValid (s.create m).2 := by
  intro m' hm'
  obtain rfl | hm' := mem_create hm'
  · exact hm
  · exact h m' hm'

theorem AllValid.update (h : AllValid s) (hm : m.valid = true) : AllValid (s.update m).2 := by
  intro m' hm'
  obtain rfl | hm' := mem_update hm'
  · exact hm
  · exact h m' hm'

theorem AllValid.recordUsage (h : AllValid s) {memories : List StoredMemory}
    (hm : ∀ m ∈ memories, m.valid = true) (runId : String) : AllValid (s.recordUsage runId memories now) := by
  intro m' hm'
  obtain hm' | ⟨m, hmem, rfl⟩ := mem_recordUsage hm'
  · exact h m' hm'
  · exact hm m hmem

theorem AllValid.createMemory (h : AllValid s) (body : CreateMemoryRequest)
    (workspaceId ownerUserId id : String) (ownsThread : Bool) (sources : Except MemoryError Unit) :
    AllValid (s.createMemory texts body workspaceId ownerUserId id ownsThread sources now).2 := by
  unfold MemoryStore.createMemory
  split
  · exact h
  · dsimp only
    split
    · exact h
    · split
      next hvalid => exact h.create hvalid
      · exact h

theorem AllValid.expireEach {items : List StoredMemory} (hitems : ∀ m ∈ items, m.valid = true) :
    ∀ {s : MemoryStore}, AllValid s → AllValid (expireEach now items s).2 := by
  induction items with
  | nil => exact id
  | cons item items ih =>
    intro s h
    have hrest : ∀ m ∈ items, m.valid = true := fun m hm => hitems m (by simp [hm])
    unfold MemoryStore.expireEach
    split
    · exact ih hrest (h.update (StoredMemory.valid_archived (hitems item (by simp))))
    · exact ih hrest h

theorem AllValid.expire (h : AllValid s) (workspaceId ownerUserId : String) :
    AllValid (s.expire workspaceId ownerUserId now).2 :=
  AllValid.expireEach (fun m hm => h m (mem_list hm).1) h

theorem AllValid.ingestCandidate (h : AllValid s) {candidate : StoredMemory} (hc : candidate.valid = true)
    {created : Option StoredMemory} {s' : MemoryStore}
    (hs : s.ingestCandidate texts candidate now = some (created, s')) : AllValid s' := by
  have hnormalized : (candidate.normalized texts).valid = true := hc
  obtain rfl | ⟨duplicate, observed, hmem, ho, rfl⟩ | rfl | ⟨conflict, -, -, -, -, rfl⟩ :=
      ingestCandidate_cases hs
  · exact h
  · obtain ⟨messageIds, evidenceIds, provenance, rfl⟩ := observed_eq ho
    have hvalid := h duplicate hmem
    exact h.update hvalid
  · exact h.create hnormalized
  · exact h.create (StoredMemory.valid_of_inactive hnormalized rfl rfl rfl nofun)

theorem AllValid.ingestCandidates (h : AllValid s) (candidates : List ValidMemory) :
    AllValid (s.ingestCandidates texts now (candidates.map Subtype.val)).2 := by
  apply ingestCandidates_induct (I := AllValid) _ h
  intro s candidate created s' hmem hs hstep
  obtain ⟨⟨candidate, hvalid⟩, -, rfl⟩ := List.mem_map.mp hmem
  exact hs.ingestCandidate hvalid hstep

theorem prior_confirmed (now : Moment) {memoryId workspaceId ownerUserId : String} {memory : StoredMemory}
    (h : s.get memoryId workspaceId ownerUserId = some memory) :
    (({ s with items := s.items.put (memory.confirmedAt now) } : MemoryStore).prior (memory.confirmedAt now)).map
      (·.validFrom) = (s.prior memory).map (·.validFrom) := by
  obtain ⟨hg, hvisible⟩ := get_eq_some_iff.mp h
  simp only [visible, Bool.and_eq_true, decide_eq_true_eq] at hvisible
  obtain ⟨⟨⟨rfl, rfl⟩, -⟩, -⟩ := hvisible
  have hsame : ∀ id, (({ s with items := s.items.put (memory.confirmedAt now) } : MemoryStore).get id
      memory.workspaceId memory.ownerUserId).map (·.validFrom) =
      (s.get id memory.workspaceId memory.ownerUserId).map (·.validFrom) := by
    intro id
    rw [get_put_confirmedAt h]
    by_cases hid : memory.id = id
    · subst hid
      rw [if_pos rfl, ← Table.key_of_get? hg] at *
      rw [h]
      rfl
    · rw [if_neg hid]
  simp only [prior]
  cases hs : truthy memory.supersedesId with
  | none => simp [StoredMemory.confirmedAt, hs]
  | some id => simpa [StoredMemory.confirmedAt, hs] using hsame id

theorem AllValid.confirmed_iff (h : AllValid s) {memoryId workspaceId ownerUserId : String}
    {memory : StoredMemory} (hg : s.get memoryId workspaceId ownerUserId = some memory) :
    AllValid (supersedePrior { s with items := s.items.put (memory.confirmedAt now) }
      (memory.confirmedAt now) now) ↔
        MemoryRequest.sound memory now .confirm = true ∧ s.endsPrior memory now .confirm = true := by
  have hput : AllValid { s with items := s.items.put (memory.confirmedAt now) } :=
    h.put (StoredMemory.valid_confirmedAt (h memory (mem_of_get hg)))
  have hprior := prior_confirmed now hg
  obtain ⟨hnone, he⟩ | ⟨prior, hsome, he⟩ := supersedePrior_cases
      { s with items := s.items.put (memory.confirmedAt now) } (memory.confirmedAt now) now
  · have hnone' : s.prior memory = none := by simpa [hnone] using hprior.symm
    rw [he]
    simp [hput, MemoryRequest.sound, endsPrior, hnone']
  · have hfound : (s.prior memory).map (·.validFrom) = some prior.validFrom := by rw [← hprior, hsome]; rfl
    have hends : s.endsPrior memory now .confirm = prior.validFrom.all (· < now) := by
      obtain ⟨prior', hp, hfrom⟩ := map_eq_some_iff.mp hfound
      simp [endsPrior, hp, hfrom]
    obtain ⟨id, -, hg'⟩ := bind_eq_some_iff.mp hsome
    rw [he, hput.put_iff, StoredMemory.valid_supersededBy (hput prior (mem_of_get hg')), hends]
    simp [MemoryRequest.sound]

theorem AllValid.serve_iff (h : AllValid s) (memoryId workspaceId ownerUserId : String)
    (request : MemoryRequest) :
    AllValid (s.serve texts memoryId workspaceId ownerUserId request now).2 ↔
      ∀ memory, s.get memoryId workspaceId ownerUserId = some memory →
        ∀ edited, request.edit texts now memory = .ok edited →
          request.sound memory now = true ∧ s.endsPrior memory now request = true := by
  obtain ⟨he, hrefused⟩ | ⟨memory, edited, hg, hedit, he⟩ :=
      s.serve_cases texts memoryId workspaceId ownerUserId request now
  · rw [he]
    refine ⟨fun _ memory hg edited hedit => ?_, fun _ => h⟩
    obtain ⟨error, herror⟩ := hrefused memory hg
    rw [herror] at hedit
    cases hedit
  · have hone : (∀ memory', s.get memoryId workspaceId ownerUserId = some memory' →
        ∀ edited', request.edit texts now memory' = .ok edited' →
          request.sound memory' now = true ∧ s.endsPrior memory' now request = true) ↔
        request.sound memory now = true ∧ s.endsPrior memory now request = true := by
      constructor
      · exact fun hall => hall memory hg edited hedit
      · intro hsound memory' hg' edited' _
        obtain rfl := Option.some.inj (hg.symm.trans hg')
        exact hsound
    have hvalid := StoredMemory.valid_of_edit (h memory (mem_of_get hg)) hedit
    rw [hone, he]
    cases request with
    | confirm =>
      obtain rfl := Except.ok.inj hedit
      exact h.confirmed_iff hg
    | patch body | pin pinned | move body ownsThread | archive | revoke reason | delete =>
      rw [← hvalid]
      simpa [endsPrior] using h.put_iff

end MemoryStore

namespace MemorySession
variable {texts : MemoryTexts} {s s' : MemorySession} {a : MemoryStep}

/-- The stored memories are valid, and so are the copies that context builds hold. -/
structure AllValid (s : MemorySession) : Prop where
  stored : s.store.AllValid
  held : ∀ bundle ∈ s.bundles, ∀ m ∈ bundle, m.valid = true

theorem AllValid.initial : AllValid {} where
  stored := by
    intro m hm
    cases hm
  held := by simp

theorem sound_request_iff {memoryId workspaceId ownerUserId : String} {request : MemoryRequest}
    {now : Moment} : s.sound texts (.request memoryId workspaceId ownerUserId request now) = true ↔
      ∀ memory, s.store.get memoryId workspaceId ownerUserId = some memory →
        ∀ edited, request.edit texts now memory = .ok edited →
          request.sound memory now = true ∧ s.store.endsPrior memory now request = true := by
  rw [sound]
  cases hg : s.store.get memoryId workspaceId ownerUserId with
  | none => simp
  | some memory =>
    cases he : request.edit texts now memory with
    | error error => simp [he, Except.isOk, Except.toBool]
    | ok edited => simp [he, Except.isOk, Except.toBool]

theorem AllValid.stored_iff (h : AllValid s) (ha : s.step texts a = some s') :
    s'.store.AllValid ↔ s.sound texts a = true := by
  cases a with
  | create body workspaceId ownerUserId id ownsThread sources now =>
    obtain rfl := Option.some.inj ha
    exact iff_of_true (h.stored.createMemory body _ _ id ownsThread sources) rfl
  | request memoryId workspaceId ownerUserId request now =>
    obtain rfl := Option.some.inj ha
    rw [sound_request_iff]
    exact h.stored.serve_iff memoryId workspaceId ownerUserId request
  | ingest candidates now =>
    obtain rfl := Option.some.inj ha
    exact iff_of_true (h.stored.ingestCandidates candidates) rfl
  | expire workspaceId ownerUserId now =>
    obtain rfl := Option.some.inj ha
    exact iff_of_true (h.stored.expire workspaceId ownerUserId) rfl
  | setPreference preference | build memoryIds =>
    obtain rfl := Option.some.inj ha
    exact iff_of_true h.stored rfl
  | recordUsage runId bundle now =>
    obtain ⟨memories, hmemories, rfl⟩ := map_eq_some_iff.mp ha
    have hheld := h.held memories (List.mem_of_getElem? hmemories)
    exact iff_of_true (h.stored.recordUsage hheld runId) rfl

theorem AllValid.step (h : AllValid s) (ha : s.step texts a = some s') (hs' : s'.store.AllValid) :
    AllValid s' := by
  refine { stored := hs', held := ?_ }
  cases a with
  | build memoryIds =>
    obtain rfl := Option.some.inj ha
    intro bundle hbundle m hm
    obtain hbundle | hbundle := List.mem_append.mp hbundle
    · exact h.held bundle hbundle m hm
    · obtain rfl := List.mem_singleton.mp hbundle
      obtain ⟨id, -, hg⟩ := List.mem_filterMap.mp hm
      exact h.stored m (Table.mem_of_get? hg)
  | recordUsage runId bundle now =>
    obtain ⟨memories, -, rfl⟩ := map_eq_some_iff.mp ha
    exact h.held
  | create | request | ingest | expire | setPreference =>
    obtain rfl := Option.some.inj ha
    exact h.held

theorem sound_of_none (ha : s.step texts a = none) : s.sound texts a = true := by
  cases a with
  | recordUsage => rfl
  | _ => cases ha

/-- All memories stored in the course of a run are valid exactly when every
request that is not refused is sound. -/
theorem stored_valid_iff (texts : MemoryTexts) (steps : List MemoryStep) :
    (∀ before after s, steps = before ++ after → Machine.exec (step texts) {} before = some s →
      ∀ m ∈ s.store.items.rows, m.valid = true) ↔
    Machine.Along (step texts) (fun s a => s.sound texts a = true) {} steps := by
  constructor
  · intro h
    have hok : Machine.Along (step texts)
        (fun s a => ∀ s', s.step texts a = some s' → s'.store.AllValid) {} steps := by
      rw [Machine.along_iff]
      intro before a after s hsteps he s' ha
      refine h (before ++ [a]) after s' (by simp [hsteps]) ?_
      rw [Machine.exec_append, he, bind_some, Machine.exec, ha]
      rfl
    refine Machine.along_of_invariant (I := AllValid) ?_ ?_ steps {} .initial hok
    · exact fun s a s' hi hvalid ha => hi.step ha (hvalid s' ha)
    · intro s a hi hvalid
      cases ha : s.step texts a with
      | none => exact sound_of_none ha
      | some s' => exact (hi.stored_iff ha).mp (hvalid s' ha)
  · rintro h before after s rfl he
    have hall := Machine.invariant_along (I := AllValid)
      (fun s a s' hi hok ha => hi.step ha ((hi.stored_iff ha).mpr hok)) .initial
      (Machine.along_append.mp h).1 he
    exact hall.stored

/-! A PATCH body with an explicit null. -/

def plainTexts : MemoryTexts where
  normalize
    | .text text => text
    | .data _ => ""
  words text := [text]
  str
    | .str s => s
    | _ => ""
  int
    | .num n => some n
    | _ => none
  isoformat _ := ""

def untyped : List MemoryStep :=
  [.create { content := .text "dark mode" } "w" "u" "m" false (.ok ()) 0,
    .request "m" "w" "u" (.patch { type := some none }) 1]

theorem untyped_not_valid :
    ¬ ∀ before after s, untyped = before ++ after →
      Machine.exec (step plainTexts) {} before = some s → ∀ m ∈ s.store.items.rows, m.valid = true := by
  intro h
  have hrun : ((Machine.exec (step plainTexts) {} untyped).any fun s =>
      s.store.items.rows.any fun m => !m.valid) = true := by decide +kernel
  cases he : Machine.exec (step plainTexts) {} untyped with
  | none => simp [he] at hrun
  | some s =>
    obtain ⟨m, hm, hinvalid⟩ : ∃ m ∈ s.store.items.rows, m.valid = false := by simpa [he] using hrun
    exact Bool.noConfusion (hinvalid.symm.trans (h untyped [] s (by simp) he m hm))

end MemorySession

end SelericSwarm
