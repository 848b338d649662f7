import SelericSwarm.MemoryValidity

/-! Concurrent requests on the memory repository, one locked method at a time:
what a request writes is a copy that it has read some time before. -/
open List Option

namespace SelericSwarm
open Keyed

/-- A request under way, named after the method it calls next. -/
inductive MemoryTask where
  /-- Any endpoint about one memory: `get`, the last one where `delete` repeats its endpoint's. -/
  | requesting (memoryId workspaceId ownerUserId : String) (request : MemoryRequest)
  | editing (memory : StoredMemory) (request : MemoryRequest)
  /-- The second half of a confirmation: `get`, then `update`. -/
  | confirmed (memory : StoredMemory)
  | superseding (prior successor : StoredMemory)
  /-- `expire`: `list`, then one `update` after the other. -/
  | listingDue (workspaceId ownerUserId : String)
  | expiring (items : List StoredMemory) (now : Moment)
  /-- `ingest_candidates`: `get_preference`, `list`, then `update` or `create`. -/
  | consenting (candidate : StoredMemory)
  | listingExisting (candidate : StoredMemory)
  | filing (candidate : StoredMemory) (existing : List StoredMemory)
  /-- `submit_message`: the builder's `list`, then `record_usage`. -/
  | building (workspaceId ownerUserId : String) (projectId threadId : Option String) (runId : String)
      (chosen : StoredMemory → Bool)
  | recordingUsage (runId : String) (memories : List StoredMemory)

/-- What the method leaves behind: the store, the rest of the request, and the
memory of which it has reported the deletion. -/
structure MemoryAccess where
  store : MemoryStore
  task : Option MemoryTask := none
  deleted : Option String := none

namespace MemoryTask
variable (texts : MemoryTexts)

def due (now : Moment) (item : StoredMemory) : Bool :=
  item.status = .active && item.expiresAt.any (· ≤ now)

def advance (s : MemoryStore) (now : Moment) : MemoryTask → MemoryAccess
  | .requesting memoryId workspaceId ownerUserId request =>
    { store := s, task := (s.get memoryId workspaceId ownerUserId).map (.editing · request) }
  | .editing memory request =>
    match request.edit texts now memory with
    | .error _ => { store := s }
    | .ok edited =>
      match s.update edited with
      | (.error _, s) => { store := s }
      | (.ok updated, s) =>
        match request with
        | .confirm => { store := s, task := some (.confirmed updated) }
        | .delete => { store := s, deleted := some updated.id }
        | _ => { store := s }
  | .confirmed memory =>
    { store := s
      task := ((truthy memory.supersedesId).bind
        (s.get · memory.workspaceId memory.ownerUserId)).map (.superseding · memory) }
  | .superseding prior successor =>
    { store := (s.update (prior.supersededBy successor.id successor.updatedAt)).2 }
  | .listingDue workspaceId ownerUserId =>
    { store := s, task := some (.expiring (s.list workspaceId ownerUserId none none true 1000 now) now) }
  | .expiring items moment =>
    match items.dropWhile (!due moment ·) with
    | [] => { store := s }
    | item :: items => { store := (s.update (item.archived moment)).2, task := some (.expiring items moment) }
  | .consenting candidate =>
    { store := s
      task := if s.optedOut candidate.workspaceId candidate.ownerUserId then none
        else some (.listingExisting (candidate.normalized texts)) }
  | .listingExisting candidate =>
    { store := s
      task := some <| .filing candidate <| s.list candidate.workspaceId candidate.ownerUserId
        candidate.projectId candidate.threadId true 500 now }
  | .filing candidate existing =>
    match existing.find? (·.absorbs candidate) with
    | some duplicate =>
      match duplicate.observed texts candidate now with
      | none => { store := s }
      | some observed => { store := (s.update observed).2 }
    | none =>
      { store := (s.create <|
          (existing.find? (·.contradicts texts candidate)).elim candidate candidate.against).2 }
  | .building workspaceId ownerUserId projectId threadId runId chosen =>
    { store := s
      task := some <| .recordingUsage runId <|
        (s.list workspaceId ownerUserId projectId threadId false 500 now).filter chosen }
  | .recordingUsage runId memories => { store := s.recordUsage runId memories now }

/-- The memory of which the method would write an edited copy back; a deletion is no edit. -/
def target : MemoryTask → Option String
  | .editing _ .delete => none
  | .editing memory _ => some memory.id
  | .superseding prior _ => some prior.id
  | .expiring items moment => (items.find? (due moment)).map (·.id)
  | .filing candidate existing => (existing.find? (·.absorbs candidate)).map (·.id)
  | _ => none

/-- The memories that the request has read and may write back. -/
def copies : MemoryTask → List StoredMemory
  | .editing memory _ | .superseding memory _ => [memory]
  | .expiring memories _ | .filing _ memories | .recordingUsage _ memories => memories
  | _ => []

end MemoryTask

structure MemoryTraffic where
  store : MemoryStore
  tasks : List MemoryTask := []
  /-- The memories that `delete` has reported deleted. -/
  deleted : List String := []

inductive TrafficStep where
  | request (memoryId workspaceId ownerUserId : String) (request : MemoryRequest)
  | create (memory : StoredMemory)
  | setPreference (preference : MemoryPreference)
  | expire (workspaceId ownerUserId : String)
  | ingest (candidate : StoredMemory)
  | submit (workspaceId ownerUserId : String) (projectId threadId : Option String) (runId : String)
      (chosen : StoredMemory → Bool)
  | advance (index : Nat) (now : Moment)

namespace MemoryTraffic
variable (texts : MemoryTexts)

def start (s : MemoryTraffic) (task : MemoryTask) : MemoryTraffic := { s with tasks := s.tasks ++ [task] }

def step (s : MemoryTraffic) : TrafficStep → Option MemoryTraffic
  | .request memoryId workspaceId ownerUserId request => some <|
    s.start (.requesting memoryId workspaceId ownerUserId request)
  | .create memory => some { s with store := (s.store.create memory).2 }
  | .setPreference preference => some { s with store := s.store.setPreference preference }
  | .expire workspaceId ownerUserId => some (s.start (.listingDue workspaceId ownerUserId))
  | .ingest candidate => some (s.start (.consenting candidate))
  | .submit workspaceId ownerUserId projectId threadId runId chosen => some <|
    s.start (.building workspaceId ownerUserId projectId threadId runId chosen)
  | .advance index now => (s.tasks[index]?).map fun task =>
    let access := task.advance texts s.store now
    { store := access.store
      tasks := s.tasks.eraseIdx index ++ access.task.toList
      deleted := s.deleted ++ access.deleted.toList }

end MemoryTraffic

namespace MemoryStore

/-- No method returns the memory. -/
structure Hides (s : MemoryStore) (id : String) : Prop where
  get : ∀ workspaceId ownerUserId, s.get id workspaceId ownerUserId = none
  list : ∀ workspaceId ownerUserId projectId threadId includeInactive limit now,
    ∀ m ∈ s.list workspaceId ownerUserId projectId threadId includeInactive limit now, m.id ≠ id
  usedByRun : ∀ runId workspaceId ownerUserId,
    ∀ m ∈ s.listUsedByRun runId workspaceId ownerUserId, m.id ≠ id

/-- The record apart from `last_used_at`. -/
def apart (s : MemoryStore) (id : String) : Option StoredMemory :=
  (s.items.get? id).map ({ · with lastUsedAt := none })

/-- The record is not marked as deleted. -/
def live (s : MemoryStore) (id : String) : Bool := (s.items.get? id).all (·.deletedAt.isNone)

end MemoryStore

/-- An edit is written back while its memory is not deleted, and usage is
recorded of memories that are stored as the builder has read them. -/
def MemoryTraffic.Current (s : MemoryTraffic) : TrafficStep → Prop
  | .advance index _ => ∀ task, s.tasks[index]? = some task →
    (∀ id, task.target = some id → s.store.live id = true) ∧
    ∀ runId memories, task = .recordingUsage runId memories → ∀ m ∈ memories,
      s.store.apart m.id = some { m with lastUsedAt := none }
  | _ => True

/-! Deleted records. -/

namespace MemoryStore
variable {s : MemoryStore} {id : String}

theorem stored_of_get {m : StoredMemory} {memoryId workspaceId ownerUserId : String}
    (h : s.get memoryId workspaceId ownerUserId = some m) :
    s.items.get? m.id = some m ∧ m.deletedAt = none := by
  obtain ⟨hstored, hvisible⟩ := get_eq_some_iff.mp h
  simp only [visible, Bool.and_eq_true, decide_eq_true_eq] at hvisible
  exact ⟨by rw [Table.key_of_get? hstored, hstored], hvisible.1.2⟩

theorem stored_of_list {m : StoredMemory} {workspaceId ownerUserId : String}
    {projectId threadId : Option String} {includeInactive : Bool} {limit : Int} {now : Moment}
    (h : m ∈ s.list workspaceId ownerUserId projectId threadId includeInactive limit now) :
    s.items.get? m.id = some m ∧ m.deletedAt = none := by
  obtain ⟨hmem, hlisted⟩ := mem_list h
  simp only [listed, Bool.and_eq_true, decide_eq_true_eq] at hlisted
  exact ⟨Table.get?_of_mem hmem, hlisted.1.1.1.2⟩

def Deleted (s : MemoryStore) (id : String) : Prop :=
  ∃ m, s.items.get? id = some m ∧ m.deletedAt.isSome = true

theorem Deleted.hides (h : s.Deleted id) : s.Hides id := by
  obtain ⟨m, hm, hdeleted⟩ := h
  have hget : ∀ workspaceId ownerUserId, s.get id workspaceId ownerUserId = none := by
    intro workspaceId ownerUserId
    have hinvisible : visible workspaceId ownerUserId m = false := by
      simp [visible, isSome_iff_ne_none.mp hdeleted]
    simp [get, hm, Option.filter, hinvisible]
  refine { get := hget, list := ?_, usedByRun := ?_ }
  · rintro workspaceId ownerUserId projectId threadId includeInactive limit now m' hm' rfl
    obtain ⟨hmem, hlisted⟩ := mem_list hm'
    obtain rfl := Option.some.inj ((Table.get?_of_mem hmem).symm.trans hm)
    simp [listed, isSome_iff_ne_none.mp hdeleted] at hlisted
  · rintro runId workspaceId ownerUserId m' hm' rfl
    obtain ⟨memoryId, -, hg⟩ := mem_filterMap.mp hm'
    have hid : m'.id = memoryId := Table.key_of_get? (get_eq_some_iff.mp hg).1
    rw [hid] at hget
    rw [hget] at hg
    cases hg

theorem Deleted.not_live (h : s.Deleted id) : s.live id = false := by
  obtain ⟨m, hm, hdeleted⟩ := h
  simpa [live, hm, isSome_iff_ne_none] using hdeleted

/-- Only a write of the memory itself brings it back. -/
theorem Deleted.update (h : s.Deleted id) {memory : StoredMemory} (hid : memory.id ≠ id) :
    (s.update memory).2.Deleted id := by
  obtain ⟨m, hm, hdeleted⟩ := h
  obtain he | ⟨-, he⟩ := s.update_cases memory
  · exact ⟨m, by rw [he, hm], hdeleted⟩
  · refine ⟨m, ?_, hdeleted⟩
    rw [he]
    exact (Table.get?_put_of_ne s.items hid).trans hm

theorem Deleted.create (h : s.Deleted id) (memory : StoredMemory) : (s.create memory).2.Deleted id := by
  obtain ⟨m, hm, hdeleted⟩ := h
  exact ⟨m, Table.get?_setdefault_of_some hm, hdeleted⟩

theorem Deleted.of_apart {s' : MemoryStore} (h : s.Deleted id) (he : s'.apart id = s.apart id) :
    s'.Deleted id := by
  obtain ⟨m, hm, hdeleted⟩ := h
  rw [apart, apart, hm, map_some] at he
  obtain ⟨m', hm', hsame⟩ := map_eq_some_iff.mp he
  exact ⟨m', hm', by rw [show m'.deletedAt = m.deletedAt from congrArg (·.deletedAt) hsame]; exact hdeleted⟩

/-- Usage recorded of memories as they are stored changes nothing but `last_used_at`. -/
theorem apart_recordUsage {memories : List StoredMemory}
    (h : ∀ m ∈ memories, s.apart m.id = some { m with lastUsedAt := none }) (runId : String) (now : Moment)
    (id : String) : (s.recordUsage runId memories now).apart id = s.apart id := by
  have hfold : ∀ items : Table StoredMemory.id,
      (∀ m ∈ memories, (items.get? m.id).map ({ · with lastUsedAt := none }) =
        some { m with lastUsedAt := none }) →
      ((memories.foldl (fun items memory => items.put (memory.usedAt now)) items).get? id).map
        ({ · with lastUsedAt := none }) = (items.get? id).map ({ · with lastUsedAt := none }) := by
    clear h
    induction memories with
    | nil => exact fun _ _ => rfl
    | cons memory memories ih =>
      intro items h
      have hput : ∀ id, ((items.put (memory.usedAt now)).get? id).map
          ({ · with lastUsedAt := none }) = (items.get? id).map ({ · with lastUsedAt := none }) := by
        intro id
        rw [Table.get?_put]
        by_cases hid : memory.id = id
        · rw [if_pos (show (memory.usedAt now).id = id from hid), ← hid, h memory (by simp)]
          rfl
        · rw [if_neg (show ¬(memory.usedAt now).id = id from hid)]
      rw [foldl_cons, ih, hput]
      intro m hm
      rw [hput, h m (by simp [hm])]
  exact hfold s.items h

theorem Deleted.update_deleted (h : s.Deleted id) {memory : StoredMemory}
    (hdeleted : memory.deletedAt.isSome = true) : (s.update memory).2.Deleted id := by
  by_cases hid : memory.id = id
  · obtain he | ⟨-, he⟩ := s.update_cases memory
    · rwa [he]
    · refine ⟨memory, ?_, hdeleted⟩
      rw [he, ← hid]
      exact Table.get?_put_self s.items memory
  · exact h.update hid

theorem update_ok {memory updated : StoredMemory} {s' : MemoryStore}
    (h : s.update memory = (.ok updated, s')) :
    updated = memory ∧ s'.items.get? memory.id = some memory := by
  unfold MemoryStore.update at h
  split at h
  · cases h
  · split at h
    · obtain ⟨hresult, rfl⟩ := Prod.mk.inj h
      exact ⟨(Except.ok.inj hresult).symm, Table.get?_put_self s.items memory⟩
    · cases h

end MemoryStore

/-! What one method call does to the records. -/

namespace MemoryTask
variable {texts : MemoryTexts} {s : MemoryStore} {now : Moment} {task : MemoryTask} {id : String}

theorem task_editing {memory : StoredMemory} {request : MemoryRequest} (h : request ≠ .confirm) :
    ((editing memory request).advance texts s now).task = none := by
  unfold advance
  dsimp only
  split
  · rfl
  · split
    · rfl
    · cases request with
      | confirm => exact absurd rfl h
      | patch | pin | move | archive | revoke | delete => rfl

theorem exists_copy (h : task.target = some id) : ∃ m ∈ task.copies, m.id = id := by
  cases task with
  | editing memory request =>
    cases request with
    | delete => cases h
    | patch | pin | confirm | move | archive | revoke => exact ⟨memory, mem_singleton_self _, Option.some.inj h⟩
  | superseding prior successor => exact ⟨prior, mem_singleton_self _, Option.some.inj h⟩
  | expiring memories moment =>
    obtain ⟨memory, hf, rfl⟩ := map_eq_some_iff.mp h
    exact ⟨memory, List.mem_of_find?_eq_some hf, rfl⟩
  | filing candidate memories =>
    obtain ⟨memory, hf, rfl⟩ := map_eq_some_iff.mp h
    exact ⟨memory, List.mem_of_find?_eq_some hf, rfl⟩
  | requesting | confirmed | listingDue | consenting | listingExisting | building | recordingUsage => cases h

/-- A call writes the memory back, as an edited copy of its target or deleted. -/
structure Writes (texts : MemoryTexts) (s : MemoryStore) (now : Moment) (task : MemoryTask)
    (memory : StoredMemory) : Prop where
  copied : task.target = some memory.id ∨ memory.deletedAt.isSome = true
  store : (task.advance texts s now).store = (s.update memory).2
  deleted : ∀ id, (task.advance texts s now).deleted = some id → (task.advance texts s now).store.Deleted id

/-- A call writes one memory back, or reports no deletion and leaves the records
as they are, creates one, or records usage. -/
def Calls (texts : MemoryTexts) (s : MemoryStore) (now : Moment) (task : MemoryTask) : Prop :=
  (∃ memory, task.Writes texts s now memory) ∨
    (task.advance texts s now).deleted = none ∧
      ((task.advance texts s now).store = s ∨
        (∃ memory, (task.advance texts s now).store = (s.create memory).2) ∨
        ∃ runId memories, task = .recordingUsage runId memories ∧
          (task.advance texts s now).store = s.recordUsage runId memories now)

theorem editing_calls (texts : MemoryTexts) (s : MemoryStore) (now : Moment) (memory : StoredMemory)
    (request : MemoryRequest) : (editing memory request).Calls texts s now := by
  cases he : request.edit texts now memory with
  | error error => exact Or.inr (by simp [advance, he])
  | ok edited =>
    have hid : edited.id = memory.id := (request.edit_tenant he).1
    cases hu : s.update edited with
    | mk result s' =>
      cases result with
      | error error =>
        have hs : s' = s := by
          obtain hsame | ⟨-, hput⟩ := s.update_cases edited
          · rw [← hsame, hu]
          · cases hu.symm.trans hput
        exact Or.inr (by simp [advance, he, hu, hs])
      | ok updated =>
        obtain ⟨rfl, hstored⟩ := MemoryStore.update_ok hu
        refine Or.inl ⟨updated, ?_⟩
        cases request with
        | delete =>
          have hdeleted : updated.deletedAt.isSome = true := by
            obtain rfl := Except.ok.inj he
            rfl
          refine { copied := Or.inr hdeleted, store := by simp [advance, he, hu], deleted := ?_ }
          simp only [advance, he, hu, Option.some.injEq]
          rintro id rfl
          exact ⟨updated, hstored, hdeleted⟩
        | patch | pin | confirm | move | archive | revoke =>
          exact { copied := Or.inl (congrArg some hid.symm)
                  store := by simp [advance, he, hu], deleted := by simp [advance, he, hu] }

theorem expiring_calls (texts : MemoryTexts) (s : MemoryStore) (now : Moment) (items : List StoredMemory)
    (moment : Moment) : (expiring items moment).Calls texts s now := by
  have hfind : items.find? (due moment) = (items.dropWhile (!due moment ·)).head? := by
    induction items with
    | nil => rfl
    | cons item items ih => cases hd : due moment item <;> simp [hd, ih]
  cases hrest : items.dropWhile (!due moment ·) with
  | nil => exact Or.inr (by simp [advance, hrest])
  | cons item rest =>
    refine Or.inl ⟨item.archived moment, ?_⟩
    exact { copied := Or.inl (by simp [target, hfind, hrest, StoredMemory.archived])
            store := by simp [advance, hrest], deleted := by simp [advance, hrest] }

theorem filing_calls (texts : MemoryTexts) (s : MemoryStore) (now : Moment) (candidate : StoredMemory)
    (existing : List StoredMemory) : (filing candidate existing).Calls texts s now := by
  cases hf : existing.find? (·.absorbs candidate) with
  | none =>
    refine Or.inr ⟨by simp [advance, hf], Or.inr (Or.inl ⟨?memory, ?_⟩)⟩
    case memory => exact (existing.find? (·.contradicts texts candidate)).elim candidate candidate.against
    simp only [advance, hf]
  | some duplicate =>
    cases ho : duplicate.observed texts candidate now with
    | none => exact Or.inr (by simp [advance, hf, ho])
    | some observed =>
      obtain ⟨messageIds, evidenceIds, provenance, hobserved⟩ := MemoryStore.observed_eq ho
      refine Or.inl ⟨observed, ?_⟩
      exact { copied := Or.inl (by simp [target, hf, hobserved])
              store := by simp [advance, hf, ho], deleted := by simp [advance, hf, ho] }

theorem calls (texts : MemoryTexts) (s : MemoryStore) (now : Moment) (task : MemoryTask) :
    task.Calls texts s now := by
  cases task with
  | editing memory request => exact editing_calls texts s now memory request
  | expiring items moment => exact expiring_calls texts s now items moment
  | filing candidate existing => exact filing_calls texts s now candidate existing
  | superseding prior successor =>
    exact Or.inl ⟨prior.supersededBy successor.id successor.updatedAt, Or.inl rfl, rfl, by simp [advance]⟩
  | recordingUsage runId memories =>
    exact Or.inr ⟨rfl, Or.inr (Or.inr ⟨runId, memories, rfl, rfl⟩)⟩
  | requesting | listingDue | consenting | listingExisting | building | confirmed =>
    exact Or.inr ⟨rfl, Or.inl rfl⟩

end MemoryTask

/-! Whole runs. -/

namespace MemoryTraffic
open MemorySession (plainTexts)
variable {texts : MemoryTexts} {s s' : MemoryTraffic} {a : TrafficStep}

def Kept (s : MemoryTraffic) : Prop := ∀ id ∈ s.deleted, s.store.Deleted id

theorem Kept.advance (h : s.Kept) {task : MemoryTask} {now : Moment}
    (hlive : ∀ id, task.target = some id → s.store.live id = true)
    (husage : ∀ runId memories, task = .recordingUsage runId memories → ∀ m ∈ memories,
      s.store.apart m.id = some { m with lastUsedAt := none })
    {id : String} (hid : id ∈ s.deleted ++ (task.advance texts s.store now).deleted.toList) :
    (task.advance texts s.store now).store.Deleted id := by
  obtain ⟨memory, hwrites⟩ | ⟨hnone, hstore⟩ := task.calls texts s.store now
  · obtain hid | hid := mem_append.mp hid
    · rw [hwrites.store]
      obtain htarget | hdeleted := hwrites.copied
      · refine (h id hid).update ?_
        rintro rfl
        exact absurd (hlive memory.id htarget) (by simp [(h memory.id hid).not_live])
      · exact (h id hid).update_deleted hdeleted
    · exact hwrites.deleted id (by simpa using hid)
  · rw [hnone, toList_none, append_nil] at hid
    obtain he | ⟨memory, he⟩ | ⟨runId, memories, rfl, he⟩ := hstore
    · rw [he]
      exact h id hid
    · rw [he]
      exact (h id hid).create memory
    · rw [he]
      exact (h id hid).of_apart (MemoryStore.apart_recordUsage (husage runId memories rfl) runId now id)

theorem Kept.step (h : s.Kept) (hcurrent : s.Current a) (ha : s.step texts a = some s') : s'.Kept := by
  cases a with
  | advance index now =>
    obtain ⟨task, ht, rfl⟩ := map_eq_some_iff.mp ha
    obtain ⟨hlive, husage⟩ := hcurrent task ht
    exact fun id hid => h.advance hlive husage hid
  | create memory =>
    obtain rfl := Option.some.inj ha
    exact fun id hid => (h id hid).create memory
  | setPreference | request | expire | ingest | submit =>
    obtain rfl := Option.some.inj ha
    exact h

/-- In a run whose calls all find the stored memories as their requests have read them,
a deletion is final and usage touches nothing but `last_used_at`. -/
theorem deleted_hidden (texts : MemoryTexts) (store : MemoryStore) (steps : List TrafficStep)
    (h : Machine.Along (step texts) Current { store } steps) :
    ∀ before after s, steps = before ++ after → Machine.exec (step texts) { store } before = some s →
      (∀ id ∈ s.deleted, s.store.Hides id) ∧
      ∀ index now runId memories s', s.tasks[index]? = some (.recordingUsage runId memories) →
        after.head? = some (.advance index now) → s.step texts (.advance index now) = some s' →
        ∀ id, s'.store.apart id = s.store.apart id := by
  rintro before after s rfl he
  obtain ⟨hbefore, hafter⟩ := Machine.along_append.mp h
  have hkept : s.Kept := Machine.invariant_along (I := Kept) (fun _ _ _ h hok ha => h.step hok ha)
    (fun _ h => absurd h (by simp)) hbefore he
  refine ⟨fun id hid => (hkept id hid).hides, ?_⟩
  intro index now runId memories s' ht hhead ha id
  obtain ⟨rest, rfl⟩ := List.head?_eq_some_iff.mp hhead
  obtain ⟨-, husage⟩ := (hafter s he).1 _ ht
  obtain ⟨task, ht', rfl⟩ := map_eq_some_iff.mp ha
  obtain rfl := Option.some.inj (ht.symm.trans ht')
  exact MemoryStore.apart_recordUsage (husage runId memories rfl) runId now id

/-! A memory that is used, pinned and deleted, one request after the other, and one
that is deleted while a message that uses it is submitted. -/

def darkMode : StoredMemory where
  id := "m"
  workspaceId := "w"
  ownerUserId := "u"
  scope := .user
  type := some .preference
  status := .active
  content := .text "dark mode"
  normalizedContent := "dark mode"
  consentedAt := some 0
  createdAt := 0
  updatedAt := 0

def unhurried : List TrafficStep :=
  [.create darkMode, .submit "w" "u" none none "r" fun _ => true, .advance 0 1, .advance 0 2,
    .request "m" "w" "u" (.pin true), .advance 0 3, .advance 0 4,
    .request "m" "w" "u" .delete, .advance 0 5, .advance 0 6]

/-- A call is current when the memories its request has read are stored unchanged. -/
theorem current_of_stored {index : Nat} {now : Moment} (h : ∀ task, s.tasks[index]? = some task →
    ∀ m ∈ task.copies, s.store.items.get? m.id = some m ∧ m.deletedAt = none) :
    s.Current (.advance index now) := by
  intro task ht
  have hlive : ∀ m ∈ task.copies, s.store.live m.id = true := by
    intro m hm
    obtain ⟨hstored, hdeleted⟩ := h task ht m hm
    simp [MemoryStore.live, hstored, hdeleted]
  constructor
  · intro id hid
    obtain ⟨m, hm, rfl⟩ := MemoryTask.exists_copy hid
    exact hlive m hm
  · rintro runId memories rfl m hm
    rw [MemoryStore.apart, (h _ ht m hm).1, map_some]

theorem along_advance {store : MemoryStore} {task : MemoryTask} {deleted : List String} {now : Moment}
    {rest : List TrafficStep}
    (hstored : ∀ m ∈ task.copies, store.items.get? m.id = some m ∧ m.deletedAt = none)
    (h : ∀ deleted', Machine.Along (step texts) Current
      { store := (task.advance texts store now).store
        tasks := (task.advance texts store now).task.toList
        deleted := deleted' } rest) :
    Machine.Along (step texts) Current { store, tasks := [task], deleted } (.advance 0 now :: rest) := by
  refine ⟨current_of_stored fun task' ht => ?_, fun s hs => ?_⟩
  · obtain rfl := Option.some.inj ht
    exact hstored
  · obtain rfl := Option.some.inj hs
    exact h _

theorem along_request {memoryId workspaceId ownerUserId : String} {request : MemoryRequest}
    (hconfirm : request ≠ .confirm) {now now' : Moment} {rest : List TrafficStep}
    (h : ∀ store deleted, Machine.Along (step texts) Current { store, deleted } rest)
    (store : MemoryStore) (deleted : List String) :
    Machine.Along (step texts) Current { store, deleted }
      (.request memoryId workspaceId ownerUserId request :: .advance 0 now :: .advance 0 now' :: rest) := by
  refine ⟨trivial, fun s hs => ?_⟩
  obtain rfl := Option.some.inj hs
  refine along_advance (by simp [MemoryTask.copies]) fun deleted' => ?_
  cases hg : store.get memoryId workspaceId ownerUserId with
  | none =>
    rw [MemoryTask.advance, hg]
    exact ⟨fun task ht => by simp at ht, fun s hs => by simp [step] at hs⟩
  | some memory =>
    rw [MemoryTask.advance, hg]
    refine along_advance ?_ fun deleted'' => ?_
    · intro m hm
      obtain rfl := mem_singleton.mp hm
      exact MemoryStore.stored_of_get hg
    · rw [MemoryTask.task_editing hconfirm]
      exact h _ _

theorem along_submit {workspaceId ownerUserId runId : String} {projectId threadId : Option String}
    {chosen : StoredMemory → Bool} {now now' : Moment} {rest : List TrafficStep}
    (h : ∀ store deleted, Machine.Along (step texts) Current { store, deleted } rest)
    (store : MemoryStore) (deleted : List String) :
    Machine.Along (step texts) Current { store, deleted }
      (.submit workspaceId ownerUserId projectId threadId runId chosen ::
        .advance 0 now :: .advance 0 now' :: rest) := by
  refine ⟨trivial, fun s hs => ?_⟩
  obtain rfl := Option.some.inj hs
  refine along_advance (by simp [MemoryTask.copies]) fun deleted' => ?_
  refine along_advance ?_ fun deleted'' => h _ _
  exact fun m hm => MemoryStore.stored_of_list (mem_filter.mp hm).1

theorem unhurried_deleted :
    ∃ s, Machine.exec (step plainTexts) { store := {} } unhurried = some s ∧ s.deleted = ["m"] ∧
      s.store.Hides "m" := by
  have hcurrent : Machine.Along (step plainTexts) Current { store := {} } unhurried := by
    refine ⟨trivial, fun s hs => ?_⟩
    obtain rfl := Option.some.inj hs
    apply along_submit
    refine along_request (by simp) (along_request (by simp) ?_)
    exact fun _ _ => trivial
  have hrun : ((Machine.exec (step plainTexts) { store := {} } unhurried).any fun s =>
      s.deleted = ["m"]) = true := by decide
  obtain ⟨s, he, hs⟩ := (Option.any_eq_true _ _).mp hrun
  have hdeleted : s.deleted = ["m"] := of_decide_eq_true hs
  refine ⟨s, he, hdeleted, ?_⟩
  exact (deleted_hidden plainTexts {} unhurried hcurrent unhurried [] s (by simp) he).1 "m" (by simp [hdeleted])

def resurrecting : List TrafficStep :=
  [.create darkMode, .submit "w" "u" none none "r" fun _ => true, .advance 0 1,
    .request "m" "w" "u" .delete, .advance 1 2, .advance 1 3, .advance 0 4]

theorem resurrecting_not_hidden :
    ¬ ∀ before after s, resurrecting = before ++ after →
      Machine.exec (step plainTexts) { store := {} } before = some s → ∀ id ∈ s.deleted, s.store.Hides id := by
  intro h
  have hrun : ((Machine.exec (step plainTexts) { store := {} } resurrecting).any fun s =>
      s.deleted = ["m"] && (s.store.get "m" "w" "u").isSome) = true := by decide
  cases he : Machine.exec (step plainTexts) { store := {} } resurrecting with
  | none => simp [he] at hrun
  | some s =>
    obtain ⟨hdeleted, hfound⟩ : s.deleted = ["m"] ∧ (s.store.get "m" "w" "u").isSome = true := by
      simpa [he] using hrun
    have hhidden := h resurrecting [] s (by simp) he "m" (by simp [hdeleted])
    simp [hhidden.get] at hfound

end MemoryTraffic

end SelericSwarm
