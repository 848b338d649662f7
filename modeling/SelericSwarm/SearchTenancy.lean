import SelericSwarm.Search

/-! What a search returns depends on the searching tenant's items alone. -/
open List

namespace SelericSwarm
open Keyed

namespace SearchRepository
variable {Score : Type}

/-! The items of a tenant, in the order in which they are stored. -/

def ownThreads (s : SearchRepository Score) (workspaceId ownerUserId : String) : List Thread :=
  s.threads.rows.filter fun item => item.workspaceId = workspaceId && item.ownerUserId = ownerUserId

def ownMessages (s : SearchRepository Score) (workspaceId ownerUserId : String) : List Message :=
  s.messages.rows.filter fun item => item.workspaceId = workspaceId &&
    (s.ownThreads workspaceId ownerUserId).any (item.threadId = ·.id)

def ownArtifacts (s : SearchRepository Score) (workspaceId ownerUserId : String) : List Artifact :=
  s.artifacts.rows.filter fun item => item.workspaceId = workspaceId &&
    (s.ownThreads workspaceId ownerUserId).any (item.threadId = some ·.id)

def ownMemories (s : SearchRepository Score) (workspaceId ownerUserId : String) : List MemoryItem :=
  s.memories.items.rows.filter fun item =>
    item.workspaceId = workspaceId && item.ownerUserId = ownerUserId

def ownRuns (s : SearchRepository Score) (workspaceId ownerUserId : String) : List Run :=
  s.runs.items.rows.filter fun item =>
    item.workspaceId = workspaceId && item.requestedByUserId = ownerUserId

structure Agree (s s' : SearchRepository Score) (workspaceId ownerUserId : String) : Prop where
  threads : s.ownThreads workspaceId ownerUserId = s'.ownThreads workspaceId ownerUserId
  messages : s.ownMessages workspaceId ownerUserId = s'.ownMessages workspaceId ownerUserId
  artifacts : s.ownArtifacts workspaceId ownerUserId = s'.ownArtifacts workspaceId ownerUserId
  memories : s.ownMemories workspaceId ownerUserId = s'.ownMemories workspaceId ownerUserId
  runs : s.ownRuns workspaceId ownerUserId = s'.ownRuns workspaceId ownerUserId

/-- A message belongs to the workspace of the thread it is stored under. -/
def Placed (s : SearchRepository Score) : Prop :=
  ∀ message ∈ s.messages.rows, ∀ thread ∈ s.threads.rows, message.threadId = thread.id →
    message.workspaceId = thread.workspaceId

def Owns (s : SearchRepository Score) (workspaceId ownerUserId : String) : SearchKey → Prop
  | (.thread, id) => ∃ item ∈ s.ownThreads workspaceId ownerUserId, item.id = id
  | (.message, id) => ∃ item ∈ s.ownMessages workspaceId ownerUserId, item.id = id
  | (.artifact, id) | (.report, id) => ∃ item ∈ s.ownArtifacts workspaceId ownerUserId, item.id = id
  | (.memory, id) => ∃ item ∈ s.ownMemories workspaceId ownerUserId, item.id = id
  | (.run, id) => ∃ item ∈ s.ownRuns workspaceId ownerUserId, item.id = id

variable {s s' : SearchRepository Score} {workspaceId ownerUserId : String}

/-! Each of the five scans reads the tenant's items only. -/

theorem listForOwner_threads (limit : Int) : s.threads.listForOwner workspaceId ownerUserId limit none =
    ((s.ownThreads workspaceId ownerUserId).insertionSort fun a b => b.updatedAt ≤ a.updatedAt).take
      (max 1 limit).toNat := by
  simp [ThreadRepository.listForOwner, ownThreads]

theorem mem_ownThreads {limit : Int} {thread : Thread}
    (h : thread ∈ s.threads.listForOwner workspaceId ownerUserId limit none) :
    thread ∈ s.ownThreads workspaceId ownerUserId := by
  rw [listForOwner_threads] at h
  exact (mem_insertionSort _).mp (mem_of_mem_take h)

theorem filter_messages (hp : s.Placed) {thread : Thread}
    (h : thread ∈ s.ownThreads workspaceId ownerUserId) :
    s.messages.rows.filter (fun item => item.threadId = thread.id) =
      (s.ownMessages workspaceId ownerUserId).filter fun item => item.threadId = thread.id := by
  rw [ownMessages, List.filter_filter]
  apply filter_congr
  intro message hmessage
  by_cases hid : message.threadId = thread.id
  · have hthread := mem_filter.mp h
    have hworkspace : message.workspaceId = workspaceId := by
      rw [hp message hmessage thread hthread.1 hid]
      simpa using (Bool.and_eq_true_iff.mp hthread.2).1
    have hany : (s.ownThreads workspaceId ownerUserId).any (message.threadId = ·.id) = true :=
      List.any_eq_true.mpr ⟨thread, h, by simp [hid]⟩
    rw [hany]
    simp [hid, hworkspace]
  · simp [hid]

theorem filter_artifacts {thread : Thread} (h : thread ∈ s.ownThreads workspaceId ownerUserId) :
    s.artifacts.rows.filter (fun item => item.workspaceId = workspaceId && item.threadId = some thread.id) =
      (s.ownArtifacts workspaceId ownerUserId).filter fun item => item.threadId = some thread.id := by
  rw [ownArtifacts, List.filter_filter]
  apply filter_congr
  intro artifact _
  by_cases hid : artifact.threadId = some thread.id
  · have hany : (s.ownThreads workspaceId ownerUserId).any (artifact.threadId = some ·.id) = true :=
      List.any_eq_true.mpr ⟨thread, h, by simp [hid]⟩
    rw [hany]
    simp [hid]
  · simp [hid]

theorem list_memories (limit : Int) (now : Moment) :
    s.memories.list workspaceId ownerUserId none none true limit now =
      (((s.ownMemories workspaceId ownerUserId).filter fun item => item.deletedAt = none).insertionSort
        fun a b => b.pinned < a.pinned ∨ b.pinned = a.pinned ∧ b.updatedAt ≤ a.updatedAt).take
          (max 1 limit).toNat := by
  rw [MemoryRepository.list, ownMemories, List.filter_filter]
  congr 2
  apply filter_congr
  intro item _
  simp [Bool.and_comm, Bool.and_assoc]

theorem listForOwner_runs (limit : Int) : s.runs.listForOwner workspaceId ownerUserId limit =
    ((s.ownRuns workspaceId ownerUserId).insertionSort fun a b => b.createdAt ≤ a.createdAt).take
      (max 1 limit).toNat := rfl

section Found
variable {texts : Texts} {floats : Floats Score} {allowed : List String}

theorem foundIn_congr (ha : Agree s s' workspaceId ownerUserId) (hp : s.Placed) (hp' : s'.Placed)
    {thread : Thread} (h : thread ∈ s.ownThreads workspaceId ownerUserId) :
    s.foundIn texts floats workspaceId allowed thread = s'.foundIn texts floats workspaceId allowed thread := by
  have h' : thread ∈ s'.ownThreads workspaceId ownerUserId := ha.threads ▸ h
  simp only [foundIn, MessageRepository.listForThread, ArtifactRepository.listForContext,
    filter_messages hp h, filter_messages hp' h', filter_artifacts h, filter_artifacts h', ha.messages,
    ha.artifacts]

theorem found_congr (ha : Agree s s' workspaceId ownerUserId) (hp : s.Placed) (hp' : s'.Placed)
    (now : Moment) : s.found texts floats workspaceId ownerUserId allowed now =
      s'.found texts floats workspaceId ownerUserId allowed now := by
  have hthreads : s.threads.listForOwner workspaceId ownerUserId 1000 none =
      s'.threads.listForOwner workspaceId ownerUserId 1000 none := by
    rw [listForOwner_threads, listForOwner_threads, ha.threads]
  have hin : (s.threads.listForOwner workspaceId ownerUserId 1000 none).flatMap
        (s.foundIn texts floats workspaceId allowed) =
      (s.threads.listForOwner workspaceId ownerUserId 1000 none).flatMap
        (s'.foundIn texts floats workspaceId allowed) := by
    apply flatMap_congr
    intro thread hthread
    exact foundIn_congr ha hp hp' (mem_ownThreads hthread)
  simp only [found, hin, list_memories, ha.memories, listForOwner_runs, ha.runs]
  rw [hthreads]

theorem owns_of_foundIn (hp : s.Placed) {thread : Thread}
    (h : thread ∈ s.ownThreads workspaceId ownerUserId) {item : SearchResult Score}
    (hitem : item ∈ s.foundIn texts floats workspaceId allowed thread) :
    s.Owns workspaceId ownerUserId item.key := by
  rw [foundIn, mem_append, mem_append] at hitem
  obtain (hitem | hitem) | hitem := hitem
  · split at hitem
    · obtain rfl := mem_singleton.mp hitem
      exact ⟨thread, h, rfl⟩
    · cases hitem
  · split at hitem
    · obtain ⟨message, hmessage, rfl⟩ := List.mem_map.mp hitem
      have hmem := (mem_insertionSort _).mp (mem_of_mem_take (mem_reverse.mp hmessage))
      rw [filter_messages hp h] at hmem
      exact ⟨message, (mem_filter.mp hmem).1, rfl⟩
    · cases hitem
  · split at hitem
    · obtain ⟨artifact, hartifact, rfl⟩ := List.mem_map.mp hitem
      have hmem := (mem_insertionSort _).mp (mem_filter.mp hartifact).1
      rw [filter_artifacts h] at hmem
      have hown : ∃ item ∈ s.ownArtifacts workspaceId ownerUserId, item.id = artifact.id :=
        ⟨artifact, (mem_filter.mp hmem).1, rfl⟩
      rw [SearchResult.key, artifactResult, artifactKind]
      split <;> exact hown
    · cases hitem

theorem owns_of_found (hp : s.Placed) {now : Moment} {item : SearchResult Score}
    (hitem : item ∈ s.found texts floats workspaceId ownerUserId allowed now) :
    s.Owns workspaceId ownerUserId item.key := by
  rw [found, mem_append, mem_append] at hitem
  obtain (hitem | hitem) | hitem := hitem
  · obtain ⟨thread, hthread, hitem⟩ := mem_flatMap.mp hitem
    exact owns_of_foundIn hp (mem_ownThreads hthread) hitem
  · split at hitem
    · obtain ⟨memory, hmemory, rfl⟩ := List.mem_map.mp hitem
      rw [list_memories] at hmemory
      have hmem := (mem_insertionSort _).mp (mem_of_mem_take hmemory)
      exact ⟨memory, (mem_filter.mp hmem).1, rfl⟩
    · cases hitem
  · split at hitem
    · obtain ⟨run, hrun, rfl⟩ := List.mem_map.mp hitem
      have hmem := (mem_filter.mp hrun).1
      rw [listForOwner_runs] at hmem
      exact ⟨run, (mem_insertionSort _).mp (mem_of_mem_take hmem), rfl⟩
    · cases hitem

end Found

section Searching
variable (texts : Texts) (floats : Floats Score)

/-- What is returned was found, whatever the hook proposes. -/
theorem key_of_mem_search {query : String} {kinds : Option (List String)} {limit : Int} {now : Moment}
    {item : SearchResult Score}
    (h : item ∈ s.search texts floats query workspaceId ownerUserId kinds limit now) :
    item.key ∈ (s.found texts floats workspaceId ownerUserId
      ((kinds.filter (· ≠ [])).getD defaultKinds) now).map SearchResult.key := by
  rw [search] at h
  split at h
  · cases h
  · refine key_of_mem_fusion ?_ ?_ ?_ (mem_of_mem_take h)
    · intro found hfound
      exact List.mem_map_of_mem (mem_filter.mp ((mem_insertionSort _).mp hfound)).1
    · intro found hfound
      simpa using (mem_filter.mp hfound).2
    · intro found hfound
      have hlexical := (mem_insertionSort _).mp hfound
      exact List.mem_map_of_mem (mem_filter.mp ((mem_insertionSort _).mp hlexical)).1

/-- Stores that agree on a tenant's items answer its searches alike, and every
answer names one of those items. -/
theorem search_noninterference (ha : Agree s s' workspaceId ownerUserId) (hp : s.Placed)
    (hp' : s'.Placed) (query : String) (kinds : Option (List String)) (limit : Int) (now : Moment)
    (hhook : s.candidates query workspaceId ownerUserId limit =
      s'.candidates query workspaceId ownerUserId limit) :
    s.search texts floats query workspaceId ownerUserId kinds limit now =
      s'.search texts floats query workspaceId ownerUserId kinds limit now ∧
    ∀ item ∈ s.search texts floats query workspaceId ownerUserId kinds limit now,
      s.Owns workspaceId ownerUserId item.key := by
  constructor
  · simp only [search, found_congr ha hp hp', hhook]
  · intro item hitem
    obtain ⟨found, hfound, hkey⟩ := List.mem_map.mp (key_of_mem_search texts floats hitem)
    exact hkey ▸ owns_of_found hp hfound

end Searching

/-! A store that also holds another tenant's thread, and one that does not. -/

def sampleTexts : Texts where
  split query := [query]
  casefold := id
  count term text := (text.toList.tails.filter term.toList.isPrefixOf).length
  str _ := ""
  dumps _ := ""
  dumpsMetadata _ := ""

def rationals : Floats Rat where
  literal := id
  add := (· + ·)
  div := (· / ·)
  lt a b := a < b
  eq a b := a = b

def revenueThread (id workspaceId ownerUserId : String) : Thread where
  id := id
  workspaceId := workspaceId
  ownerUserId := ownerUserId
  title := some "revenue"
  updatedAt := 0

def revenueMessage (id threadId workspaceId : String) : Message where
  id := id
  threadId := threadId
  workspaceId := workspaceId
  role := .user
  parts := [{ type := .text, content := .str "revenue of march" }]
  createdAt := 1

def aloneRepository : SearchRepository Rat where
  threads := Table.empty.put (revenueThread "t" "w" "u")
  messages := Table.empty.put (revenueMessage "m" "t" "w")
  runs := {}
  artifacts := Table.empty
  memories := {}

def sharedRepository : SearchRepository Rat :=
  { aloneRepository with
    threads := aloneRepository.threads.put (revenueThread "t'" "w'" "u'")
    messages := aloneRepository.messages.put (revenueMessage "m'" "t'" "w'") }

example : (sharedRepository.search sampleTexts rationals "revenue" "w" "u" none 20 0).map SearchResult.key =
    [(.thread, "t"), (.message, "m")] := by decide +kernel

theorem search_shared_alone :
    sharedRepository.search sampleTexts rationals "revenue" "w" "u" none 20 0 =
      aloneRepository.search sampleTexts rationals "revenue" "w" "u" none 20 0 ∧
    ∀ item ∈ sharedRepository.search sampleTexts rationals "revenue" "w" "u" none 20 0,
      sharedRepository.Owns "w" "u" item.key :=
  search_noninterference sampleTexts rationals
    { threads := rfl, messages := rfl, artifacts := rfl, memories := rfl, runs := rfl }
    (by unfold Placed; decide) (by unfold Placed; decide) "revenue" none 20 0 rfl

end SearchRepository

end SelericSwarm
