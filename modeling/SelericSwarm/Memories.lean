import SelericSwarm.Search
import Mathlib.Data.Finset.Card
import Mathlib.Tactic.NormNum

/-! Memories in full, as the in-memory repository holds them, and the requests that
change one. A change is a `model_copy(update=...)`, which validates nothing. -/
open List Option

namespace SelericSwarm
open Keyed

inductive MemoryScope where
  | thread | user | project | episodic
  deriving DecidableEq, Repr

inductive MemoryContent where
  | text (text : String)
  | data (entries : Payload)

/-- A memory whose type, confidence and salience may have been set to null. -/
structure StoredMemory where
  id : String
  workspaceId : String
  ownerUserId : String
  projectId : Option String := none
  scope : MemoryScope
  type : Option MemoryType
  status : MemoryStatus := .pendingConsent
  content : MemoryContent
  normalizedContent : String := ""
  structuredData : Payload := .empty
  provenance : Payload := .empty
  confidence : Option ℚ := some 1
  salience : Option ℚ := some (1 / 2)
  threadId : Option String := none
  sourceMessageId : Option String := none
  sourceMessageIds : List String := []
  sourceRunId : Option String := none
  sourceEvidenceIds : List String := []
  supersedesId : Option String := none
  supersededById : Option String := none
  pinned : Bool := false
  requiresConfirmation : Bool := true
  consentedAt : Option Moment := none
  validFrom : Option Moment := none
  validTo : Option Moment := none
  createdAt : Moment
  updatedAt : Moment
  lastUsedAt : Option Moment := none
  expiresAt : Option Moment := none
  archivedAt : Option Moment := none
  deletedAt : Option Moment := none

namespace StoredMemory

/-! The checks of the model. -/

def unit (x : ℚ) : Bool := 0 ≤ x && x ≤ 1

def typed (m : StoredMemory) : Bool := m.type.isSome && m.confidence.any unit && m.salience.any unit

def placed (m : StoredMemory) : Bool :=
  (m.scope ≠ .thread || (truthy m.threadId).isSome) &&
    (!(m.scope = .project || m.scope = .episodic) || (truthy m.projectId).isSome)

def consented (m : StoredMemory) : Bool := m.status ≠ .active || m.consentedAt.isSome

def ordered (m : StoredMemory) : Bool := m.validFrom.all fun start => m.validTo.all (start < ·)

def valid (m : StoredMemory) : Bool := m.typed && m.placed && m.consented && m.ordered

end StoredMemory

/-- What the constructor lets through. -/
abbrev ValidMemory := {m : StoredMemory // m.valid}

/-! `InMemoryMemoryRepository`. -/

structure MemoryStore where
  items : Table StoredMemory.id := .empty
  usage : Dict String (List String) := .empty
  preferences : Dict (String × String) MemoryPreference := .empty

namespace MemoryStore

def create (s : MemoryStore) (memory : StoredMemory) : StoredMemory × MemoryStore :=
  let items := s.items.setdefault memory
  ((items.get? memory.id).getD memory, { s with items })

/-- Neither deleted nor of another owner. -/
def visible (workspaceId ownerUserId : String) (item : StoredMemory) : Bool :=
  item.workspaceId = workspaceId && item.ownerUserId = ownerUserId && item.deletedAt = none &&
    item.status ≠ .deleted

def get (s : MemoryStore) (memoryId workspaceId ownerUserId : String) : Option StoredMemory :=
  (s.items.get? memoryId).filter (visible workspaceId ownerUserId)

def effectiveAt (item : StoredMemory) (now : Moment) : Bool :=
  item.status = .active && item.validFrom.all (· ≤ now) && item.validTo.all (now < ·) &&
    item.expiresAt.all (now < ·)

def listed (workspaceId ownerUserId : String) (projectId threadId : Option String)
    (includeInactive : Bool) (now : Moment) (item : StoredMemory) : Bool :=
  item.workspaceId = workspaceId && item.ownerUserId = ownerUserId && item.deletedAt = none &&
    projectId.all (fun id => item.projectId.all (· = id)) &&
    threadId.all (fun id => item.threadId.all (· = id)) && (includeInactive || effectiveAt item now)

/-- `(pinned, updated_at)` of the first is not below that of the second. -/
def notBelow (a b : StoredMemory) : Bool :=
  (a.pinned && !b.pinned) || (a.pinned = b.pinned && b.updatedAt ≤ a.updatedAt)

def list (s : MemoryStore) (workspaceId ownerUserId : String) (projectId threadId : Option String)
    (includeInactive : Bool) (limit : Int) (now : Moment) : List StoredMemory :=
  ((s.items.rows.filter (listed workspaceId ownerUserId projectId threadId includeInactive now)).insertionSort
    fun a b => notBelow a b).take (max 1 limit).toNat

def update (s : MemoryStore) (memory : StoredMemory) : Except StoreError StoredMemory × MemoryStore :=
  match s.items.get? memory.id with
  | none => (.error (.missing memory.id), s)
  | some existing =>
    if existing.workspaceId = memory.workspaceId ∧ existing.ownerUserId = memory.ownerUserId then
      (.ok memory, { s with items := s.items.put memory })
    else (.error (.missing memory.id), s)

/-- A memory is written back as the caller holds it. -/
def recordUsage (s : MemoryStore) (runId : String) (memories : List StoredMemory) (now : Moment) :
    MemoryStore :=
  { s with
    items := memories.foldl (fun items memory => items.put { memory with lastUsedAt := some now }) s.items
    usage := s.usage.set runId <| memories.foldl
      (fun ids memory => if memory.id ∈ ids then ids else ids ++ [memory.id]) (s.usage.getD runId []) }

def listUsedByRun (s : MemoryStore) (runId workspaceId ownerUserId : String) : List StoredMemory :=
  (s.usage.getD runId []).filterMap fun memoryId => s.get memoryId workspaceId ownerUserId

def optedOut (s : MemoryStore) (workspaceId ownerUserId : String) : Bool :=
  (s.preferences.get? (workspaceId, ownerUserId)).any (·.optedOut)

def setPreference (s : MemoryStore) (preference : MemoryPreference) : MemoryStore :=
  { s with
    preferences := s.preferences.set (preference.workspaceId, preference.ownerUserId) preference }

end MemoryStore

/-- Python's text functions on memories: `normalize_memory_content`, `str.split()`, `str`,
`int` and `isoformat()`. -/
structure MemoryTexts where
  normalize : MemoryContent → String
  words : String → List String
  str : Json → String
  int : Json → Option Int
  isoformat : Moment → String

/-! The bodies of the requests. -/

abbrev UnitInterval := {x : ℚ // StoredMemory.unit x}

structure CreateMemoryRequest where
  content : MemoryContent
  scope : MemoryScope := .user
  type : MemoryType := .fact
  projectId : Option String := none
  threadId : Option String := none
  confidence : UnitInterval := ⟨1, by norm_num [StoredMemory.unit]⟩
  salience : UnitInterval := ⟨1 / 2, by norm_num [StoredMemory.unit]⟩
  sourceRunId : Option String := none
  sourceMessageIds : List String := []
  sourceEvidenceIds : List String := []
  pinned : Bool := false

/-- A field that is not sent is `none`, an explicit null `some none`. -/
structure UpdateMemoryRequest where
  content : Option (Option MemoryContent) := none
  type : Option (Option MemoryType) := none
  confidence : Option (Option UnitInterval) := none
  salience : Option (Option UnitInterval) := none

structure MoveMemoryRequest where
  scope : MemoryScope
  projectId : Option String := none
  threadId : Option String := none

inductive MemoryError where
  | notFound
  | threadNotFound
  | runNotFound
  | sourceNotFound
  | threadRequired
  | projectRequired
  | contentNull
  | optedOut
  | invalid
  | store (error : StoreError)
  deriving DecidableEq, Repr

namespace MemoryError

/-- The status and detail of the answer; an exception that is not handled is a 500. -/
def answer : MemoryError → Nat × String
  | .notFound => (404, "memory not found")
  | .threadNotFound => (404, "thread not found")
  | .runNotFound => (404, "run not found")
  | .sourceNotFound => (422, "source message not found")
  | .threadRequired => (422, "THREAD scope requires thread_id")
  | .projectRequired => (422, "PROJECT/EPISODIC scope requires project_id")
  | .contentNull => (422, "content must not be null")
  | .optedOut => (409, "memory is opted out")
  | .invalid | .store _ => (500, "Internal Server Error")

end MemoryError

/-! What a request writes for the memory it has read. -/

namespace StoredMemory

def pinnedAs (m : StoredMemory) (pinned : Bool) (now : Moment) : StoredMemory :=
  { m with pinned, updatedAt := now }

def confirmedAt (m : StoredMemory) (now : Moment) : StoredMemory :=
  { m with status := .active, consentedAt := some now, requiresConfirmation := false, updatedAt := now }

def supersededBy (m : StoredMemory) (id : String) (now : Moment) : StoredMemory :=
  { m with status := .superseded, supersededById := some id, validTo := some now, updatedAt := now }

def movedTo (m : StoredMemory) (body : MoveMemoryRequest) (now : Moment) : StoredMemory :=
  { m with
    scope := body.scope, projectId := body.projectId, threadId := body.threadId, updatedAt := now }

/-- The archive endpoint, and the expiry sweep. -/
def archived (m : StoredMemory) (now : Moment) : StoredMemory :=
  { m with status := .archived, archivedAt := some now, updatedAt := now }

def deleted (m : StoredMemory) (now : Moment) : StoredMemory :=
  { m with status := .deleted, deletedAt := some now, updatedAt := now }

def usedAt (m : StoredMemory) (now : Moment) : StoredMemory := { m with lastUsedAt := some now }

section Texts
variable (texts : MemoryTexts)

/-- `model_dump(exclude_unset=True)` over the memory, with the normalized content beside the content. -/
def patched (m : StoredMemory) (body : UpdateMemoryRequest) (now : Moment) : Except MemoryError StoredMemory :=
  let changed := { m with
    type := body.type.getD m.type
    confidence := body.confidence.elim m.confidence (·.map Subtype.val)
    salience := body.salience.elim m.salience (·.map Subtype.val)
    updatedAt := now }
  match body.content with
  | none => .ok changed
  | some none => .error .contentNull
  | some (some content) =>
    .ok { changed with content, normalizedContent := texts.normalize content }

def revoked (m : StoredMemory) (reason : Option String) (now : Moment) : StoredMemory :=
  { m with
    status := .archived, validTo := some now, archivedAt := some now, updatedAt := now
    provenance := m.provenance.set "revocation"
      (.obj [("reason", reason.elim .null .str), ("revoked_at", .str (texts.isoformat now))]) }

end Texts

end StoredMemory

/-- A request about one memory; `ownsThread` is what `_owned_thread` finds of the thread it names. -/
inductive MemoryRequest where
  | patch (body : UpdateMemoryRequest)
  | pin (pinned : Bool)
  | confirm
  | move (body : MoveMemoryRequest) (ownsThread : Bool)
  | archive
  | revoke (reason : Option String)
  | delete

namespace MemoryRequest

/-- The scope checks of `create_memory` and `move_memory`. -/
def checkScope (scope : MemoryScope) (projectId threadId : Option String) (ownsThread : Bool) :
    Except MemoryError Unit :=
  if scope = .thread ∧ threadId = none then .error .threadRequired
  else if (scope = .project ∨ scope = .episodic) ∧ projectId = none then .error .projectRequired
  else if threadId.isSome ∧ !ownsThread then .error .threadNotFound
  else .ok ()

def edit (texts : MemoryTexts) (now : Moment) (memory : StoredMemory) :
    MemoryRequest → Except MemoryError StoredMemory
  | .patch body => memory.patched texts body now
  | .pin pinned => .ok (memory.pinnedAs pinned now)
  | .confirm => .ok (memory.confirmedAt now)
  | .move body ownsThread =>
    (checkScope body.scope body.projectId body.threadId ownsThread).map fun _ => memory.movedTo body now
  | .archive => .ok (memory.archived now)
  | .revoke reason => .ok (memory.revoked texts reason now)
  | .delete => .ok (memory.deleted now)

end MemoryRequest

namespace MemoryStore

/-- The second half of `MemoryService.confirm`. -/
def supersedePrior (s : MemoryStore) (confirmed : StoredMemory) (now : Moment) : MemoryStore :=
  match (truthy confirmed.supersedesId).bind
      (s.get · confirmed.workspaceId confirmed.ownerUserId) with
  | none => s
  | some prior => (s.update (prior.supersededBy confirmed.id now)).2

/-- A request from its read of the memory to its last write. -/
def serve (texts : MemoryTexts) (s : MemoryStore) (memoryId workspaceId ownerUserId : String)
    (request : MemoryRequest) (now : Moment) : Except MemoryError StoredMemory × MemoryStore :=
  match s.get memoryId workspaceId ownerUserId with
  | none => (.error .notFound, s)
  | some memory =>
    match request.edit texts now memory with
    | .error error => (.error error, s)
    | .ok edited =>
      match s.update edited with
      | (.error error, s) => (.error (.store error), s)
      | (.ok updated, s) =>
        match request with
        | .confirm => (.ok updated, s.supersedePrior updated now)
        | _ => (.ok updated, s)

end MemoryStore

/-! `create_memory`. -/

def CreateMemoryRequest.memory (texts : MemoryTexts) (body : CreateMemoryRequest)
    (workspaceId ownerUserId id : String) (now : Moment) : StoredMemory where
  id := id
  workspaceId := workspaceId
  ownerUserId := ownerUserId
  projectId := body.projectId
  threadId := body.threadId
  scope := body.scope
  type := some body.type
  status := .active
  content := body.content
  normalizedContent := texts.normalize body.content
  provenance := Dict.empty.set "created_by" (.str "user")
  confidence := some body.confidence
  salience := some body.salience
  sourceRunId := body.sourceRunId
  sourceMessageIds := body.sourceMessageIds
  sourceEvidenceIds := body.sourceEvidenceIds
  pinned := body.pinned
  requiresConfirmation := false
  consentedAt := some now
  createdAt := now
  updatedAt := now

/-- `sources` is what the lookups of the source run and messages find. -/
def MemoryStore.createMemory (texts : MemoryTexts) (s : MemoryStore) (body : CreateMemoryRequest)
    (workspaceId ownerUserId id : String) (ownsThread : Bool) (sources : Except MemoryError Unit)
    (now : Moment) : Except MemoryError StoredMemory × MemoryStore :=
  match (MemoryRequest.checkScope body.scope body.projectId body.threadId ownsThread).bind fun _ => sources with
  | .error error => (.error error, s)
  | .ok () =>
    let memory := body.memory texts workspaceId ownerUserId id now
    if s.optedOut workspaceId ownerUserId then (.error .optedOut, s)
    else if memory.valid then
      let created := s.create memory
      (.ok created.1, created.2)
    else (.error .invalid, s)

/-! `MemoryService`. -/

/-- `list(dict.fromkeys(items))`. -/
def fromKeys (items : List String) : List String := items.reverse.dedup.reverse

theorem mem_fromKeys {items : List String} {item : String} : item ∈ fromKeys items ↔ item ∈ items := by
  simp [fromKeys]

theorem nodup_fromKeys (items : List String) : (fromKeys items).Nodup := by
  rw [fromKeys, nodup_reverse]
  exact nodup_dedup _

namespace StoredMemory
variable (texts : MemoryTexts)

def subjectKey (m : StoredMemory) : String :=
  ((m.structuredData.get? "subject_key").filter Json.truthy).elim "" texts.str

def negated (m : StoredMemory) : Bool :=
  ["not", "never", "cannot"].any (· ∈ texts.words m.normalizedContent)

/-- `memories_contradict`; three fifths is the bound on the overlap. -/
def contradicts (left right : StoredMemory) : Bool :=
  let leftKey := left.subjectKey texts
  let rightKey := right.subjectKey texts
  if leftKey = "" || rightKey = "" then false
  else
    let leftWords := (texts.words leftKey).toFinset
    let rightWords := (texts.words rightKey).toFinset
    3 * max 1 (min leftWords.card rightWords.card) ≤ 5 * (leftWords ∩ rightWords).card &&
      left.negated texts ≠ right.negated texts

/-- The candidate with its content normalized, where it brings none. -/
def normalized (m : StoredMemory) : StoredMemory :=
  { m with normalizedContent := (truthy (some m.normalizedContent)).getD (texts.normalize m.content) }

/-- Live memories alone absorb an observation. -/
def absorbs (m candidate : StoredMemory) : Bool :=
  m.normalizedContent = candidate.normalizedContent && m.type = candidate.type &&
    m.status ∉ [.superseded, .archived, .deleted]

/-- One more observation of a stored memory; a count that is no number raises. -/
def observed (m candidate : StoredMemory) (now : Moment) : Option StoredMemory :=
  (((m.provenance.get? "duplicate_observations").elim (some 0) texts.int)).map fun count =>
    { m with
      sourceMessageIds := fromKeys <| m.sourceMessageIds ++ candidate.sourceMessageIds ++
        (truthy candidate.sourceMessageId).toList
      sourceEvidenceIds := fromKeys (m.sourceEvidenceIds ++ candidate.sourceEvidenceIds)
      provenance := (m.provenance.set "duplicate_observations" (.num (count + 1))).set
        "latest_duplicate_provenance" (.obj candidate.provenance.rows)
      updatedAt := now }

/-- A candidate that contradicts a stored memory waits for consent to take its place. -/
def against (m conflict : StoredMemory) : StoredMemory :=
  { m with
    status := .pendingConsent, supersedesId := some conflict.id
    provenance := m.provenance.set "contradicts_id" (.str conflict.id) }

end StoredMemory

namespace MemoryStore
variable (texts : MemoryTexts)

/-- One candidate: what is created of it, if anything; `none` where a call raises. -/
def ingestCandidate (s : MemoryStore) (candidate : StoredMemory) (now : Moment) :
    Option (Option StoredMemory × MemoryStore) :=
  if s.optedOut candidate.workspaceId candidate.ownerUserId then some (none, s)
  else
    let candidate := candidate.normalized texts
    let existing := s.list candidate.workspaceId candidate.ownerUserId candidate.projectId
      candidate.threadId true 500 now
    match existing.find? (·.absorbs candidate) with
    | some duplicate =>
      (duplicate.observed texts candidate now).bind fun observed =>
        match s.update observed with
        | (.error _, _) => none
        | (.ok _, s) => some (none, s)
    | none =>
      let created := s.create <|
        (existing.find? (·.contradicts texts candidate)).elim candidate candidate.against
      some (some created.1, created.2)

/-- What has been created, or `none` where a call raises, and the store after it. -/
def ingestCandidates (s : MemoryStore) (now : Moment) :
    List StoredMemory → Option (List StoredMemory) × MemoryStore
  | [] => (some [], s)
  | candidate :: candidates =>
    match s.ingestCandidate texts candidate now with
    | none => (none, s)
    | some (created, s) =>
      let rest := ingestCandidates s now candidates
      (rest.1.map (created.toList ++ ·), rest.2)

/-- The loop of `expire` over the memories it has listed, and the number it has changed. -/
def expireEach (now : Moment) : List StoredMemory → MemoryStore → Nat × MemoryStore
  | [], s => (0, s)
  | item :: items, s =>
    if item.status = .active && item.expiresAt.any (· ≤ now) then
      let rest := expireEach now items (s.update (item.archived now)).2
      (rest.1 + 1, rest.2)
    else expireEach now items s

def expire (s : MemoryStore) (workspaceId ownerUserId : String) (now : Moment) : Nat × MemoryStore :=
  expireEach now (s.list workspaceId ownerUserId none none true 1000 now) s

end MemoryStore

/-! What the methods of the repository read and write. -/

namespace MemoryStore
variable {s : MemoryStore} {m memory : StoredMemory} {memoryId workspaceId ownerUserId : String}

theorem get_eq_some_iff : s.get memoryId workspaceId ownerUserId = some m ↔
    s.items.get? memoryId = some m ∧ visible workspaceId ownerUserId m = true := by
  simp [get, filter_eq_some_iff]

theorem mem_of_get (h : s.get memoryId workspaceId ownerUserId = some m) : m ∈ s.items.rows :=
  Table.mem_of_get? (get_eq_some_iff.mp h).1

theorem mem_list {projectId threadId : Option String} {includeInactive : Bool} {limit : Int} {now : Moment}
    (h : m ∈ s.list workspaceId ownerUserId projectId threadId includeInactive limit now) :
    m ∈ s.items.rows ∧ listed workspaceId ownerUserId projectId threadId includeInactive now m = true :=
  mem_filter.mp ((mem_insertionSort _).mp (mem_of_mem_take h))

theorem mem_create (h : m ∈ (s.create memory).2.items.rows) : m = memory ∨ m ∈ s.items.rows := by
  cases hg : s.items.get? memory.id with
  | none => exact Table.mem_put (Table.setdefault_of_none hg ▸ h)
  | some stored => exact Or.inr (Table.setdefault_of_get? hg ▸ h)

theorem update_of_get (h : s.get memoryId workspaceId ownerUserId = some m) (hid : memory.id = m.id)
    (hworkspace : memory.workspaceId = m.workspaceId) (howner : memory.ownerUserId = m.ownerUserId) :
    s.update memory = (.ok memory, { s with items := s.items.put memory }) := by
  obtain ⟨hg, -⟩ := get_eq_some_iff.mp h
  have hown : s.items.get? memory.id = some m := by rw [hid, Table.key_of_get? hg, hg]
  simp [update, hown, hworkspace, howner]

theorem update_cases (s : MemoryStore) (memory : StoredMemory) :
    (s.update memory).2 = s ∨ (∃ existing, s.items.get? memory.id = some existing) ∧
      s.update memory = (.ok memory, { s with items := s.items.put memory }) := by
  unfold update
  split
  · exact Or.inl rfl
  next existing hg =>
    split
    · exact Or.inr ⟨⟨existing, hg⟩, rfl⟩
    · exact Or.inl rfl

theorem mem_update (h : m ∈ (s.update memory).2.items.rows) : m = memory ∨ m ∈ s.items.rows := by
  obtain he | ⟨-, he⟩ := s.update_cases memory
  · exact Or.inr (he ▸ h)
  · rw [he] at h
    exact Table.mem_put h

theorem mem_foldl_put {memories : List StoredMemory} {now : Moment} :
    ∀ {items : Table StoredMemory.id},
      m ∈ (memories.foldl (fun items memory => items.put (memory.usedAt now)) items).rows →
      m ∈ items.rows ∨ ∃ memory ∈ memories, m = memory.usedAt now := by
  induction memories with
  | nil => exact Or.inl
  | cons memory memories ih =>
    intro items h
    obtain h | ⟨memory', hmem, rfl⟩ := ih h
    · obtain rfl | h := Table.mem_put h
      · exact Or.inr ⟨memory, by simp, rfl⟩
      · exact Or.inl h
    · exact Or.inr ⟨memory', by simp [hmem], rfl⟩

theorem mem_recordUsage {runId : String} {memories : List StoredMemory} {now : Moment}
    (h : m ∈ (s.recordUsage runId memories now).items.rows) :
    m ∈ s.items.rows ∨ ∃ memory ∈ memories, m = memory.usedAt now :=
  mem_foldl_put h

end MemoryStore

theorem MemoryRequest.edit_tenant {texts : MemoryTexts} {now : Moment} {memory edited : StoredMemory}
    {request : MemoryRequest} (h : request.edit texts now memory = .ok edited) :
    edited.id = memory.id ∧ edited.workspaceId = memory.workspaceId ∧
      edited.ownerUserId = memory.ownerUserId := by
  cases request with
  | patch body =>
    simp only [edit, StoredMemory.patched] at h
    split at h
    · obtain rfl := Except.ok.inj h
      exact ⟨rfl, rfl, rfl⟩
    · cases h
    · obtain rfl := Except.ok.inj h
      exact ⟨rfl, rfl, rfl⟩
  | move body ownsThread =>
    simp only [edit] at h
    cases hc : checkScope body.scope body.projectId body.threadId ownsThread with
    | error error =>
      rw [hc] at h
      cases h
    | ok =>
      rw [hc] at h
      obtain rfl := Except.ok.inj h
      exact ⟨rfl, rfl, rfl⟩
  | pin | confirm | archive | revoke | delete =>
    obtain rfl := Except.ok.inj h
    exact ⟨rfl, rfl, rfl⟩

namespace MemoryStore
variable {s : MemoryStore} {texts : MemoryTexts} {memoryId workspaceId ownerUserId : String}
  {request : MemoryRequest} {now : Moment}

/-- A request is refused, or replaces the record it has read; a confirmation goes on to the prior one. -/
theorem serve_cases (s : MemoryStore) (texts : MemoryTexts) (memoryId workspaceId ownerUserId : String)
    (request : MemoryRequest) (now : Moment) :
    (s.serve texts memoryId workspaceId ownerUserId request now).2 = s ∧
      (∀ memory, s.get memoryId workspaceId ownerUserId = some memory →
        ∃ error, request.edit texts now memory = .error error) ∨
    ∃ memory edited, s.get memoryId workspaceId ownerUserId = some memory ∧
      request.edit texts now memory = .ok edited ∧
      (s.serve texts memoryId workspaceId ownerUserId request now).2 =
        match request with
        | .confirm => supersedePrior { s with items := s.items.put edited } edited now
        | _ => { s with items := s.items.put edited } := by
  cases hg : s.get memoryId workspaceId ownerUserId with
  | none => exact Or.inl ⟨by simp [serve, hg], by simp⟩
  | some memory =>
    cases he : request.edit texts now memory with
    | error error =>
      refine Or.inl ⟨by simp [serve, hg, he], ?_⟩
      intro memory' h
      obtain rfl := Option.some.inj h
      exact ⟨error, he⟩
    | ok edited =>
      obtain ⟨hid, hworkspace, howner⟩ := request.edit_tenant he
      refine Or.inr ⟨memory, edited, rfl, he, ?_⟩
      simp only [serve, hg, he, update_of_get hg hid hworkspace howner]
      cases request <;> rfl

/-- The record that `supersede` finds. -/
def prior (s : MemoryStore) (memory : StoredMemory) : Option StoredMemory :=
  (truthy memory.supersedesId).bind (s.get · memory.workspaceId memory.ownerUserId)

theorem supersedePrior_cases (s : MemoryStore) (confirmed : StoredMemory) (now : Moment) :
    (s.prior confirmed = none ∧ s.supersedePrior confirmed now = s) ∨
    ∃ prior, s.prior confirmed = some prior ∧
      s.supersedePrior confirmed now = { s with items := s.items.put (prior.supersededBy confirmed.id now) } := by
  cases hp : s.prior confirmed with
  | none =>
    refine Or.inl ⟨rfl, ?_⟩
    rw [prior] at hp
    rw [supersedePrior, hp]
  | some prior =>
    refine Or.inr ⟨prior, rfl, ?_⟩
    rw [MemoryStore.prior] at hp
    obtain ⟨id, -, hg⟩ := bind_eq_some_iff.mp hp
    have hupdate : s.update (prior.supersededBy confirmed.id now) = _ := update_of_get hg rfl rfl rfl
    rw [supersedePrior, hp]
    exact congrArg Prod.snd hupdate

theorem get_put_confirmedAt {memory : StoredMemory} (h : s.get memoryId workspaceId ownerUserId = some memory)
    (now : Moment) (id : String) :
    ({ s with items := s.items.put (memory.confirmedAt now) } : MemoryStore).get id workspaceId ownerUserId =
      if memory.id = id then some (memory.confirmedAt now) else s.get id workspaceId ownerUserId := by
  obtain ⟨-, hvisible⟩ := get_eq_some_iff.mp h
  have hvisible' : visible workspaceId ownerUserId (memory.confirmedAt now) = true := by
    simp only [visible, Bool.and_eq_true, decide_eq_true_eq] at hvisible ⊢
    exact ⟨hvisible.1, by simp [StoredMemory.confirmedAt]⟩
  rw [get, Table.get?_put]
  by_cases hid : memory.id = id
  · rw [if_pos hid, if_pos (show (memory.confirmedAt now).id = id from hid)]
    simp [Option.filter, hvisible']
  · rw [if_neg hid, if_neg (show ¬(memory.confirmedAt now).id = id from hid)]
    rfl

theorem observed_eq {m candidate observed : StoredMemory}
    (h : m.observed texts candidate now = some observed) :
    ∃ messageIds evidenceIds provenance, observed = { m with
      sourceMessageIds := messageIds, sourceEvidenceIds := evidenceIds, provenance := provenance
      updatedAt := now } := by
  obtain ⟨count, -, rfl⟩ := map_eq_some_iff.mp h
  exact ⟨_, _, _, rfl⟩

/-- A candidate leaves the store as it is, is one more observation of a stored
memory, or is created, in conflict with a stored memory or not. -/
theorem ingestCandidate_cases {candidate : StoredMemory} {created : Option StoredMemory} {s' : MemoryStore}
    (h : s.ingestCandidate texts candidate now = some (created, s')) :
    s' = s ∨
    (∃ duplicate observed, duplicate ∈ s.items.rows ∧
      duplicate.observed texts (candidate.normalized texts) now = some observed ∧ s' = (s.update observed).2) ∨
    s' = (s.create (candidate.normalized texts)).2 ∨
    ∃ conflict ∈ s.items.rows, conflict.workspaceId = candidate.workspaceId ∧
      conflict.ownerUserId = candidate.ownerUserId ∧ conflict.deletedAt = none ∧
      s' = (s.create ((candidate.normalized texts).against conflict)).2 := by
  unfold ingestCandidate at h
  split at h
  · obtain ⟨-, rfl⟩ := Prod.mk.inj (Option.some.inj h)
    exact Or.inl rfl
  dsimp only at h
  split at h
  next duplicate hduplicate =>
    obtain ⟨observed, ho, h⟩ := bind_eq_some_iff.mp h
    refine Or.inr (Or.inl ⟨duplicate, observed, (mem_list (List.mem_of_find?_eq_some hduplicate)).1, ho, ?_⟩)
    split at h
    · cases h
    next he =>
      obtain ⟨-, rfl⟩ := Prod.mk.inj (Option.some.inj h)
      rw [he]
  next =>
    obtain ⟨-, rfl⟩ := Prod.mk.inj (Option.some.inj h)
    refine Or.inr (Or.inr ?_)
    cases hf : (s.list _ _ _ _ _ _ _).find? _ with
    | none => exact Or.inl rfl
    | some conflict =>
      obtain ⟨hmem, hlisted⟩ := mem_list (List.mem_of_find?_eq_some hf)
      simp only [listed, Bool.and_eq_true, decide_eq_true_eq] at hlisted
      obtain ⟨⟨⟨⟨⟨hworkspace, howner⟩, hdeleted⟩, -⟩, -⟩, -⟩ := hlisted
      exact Or.inr ⟨conflict, hmem, hworkspace, howner, hdeleted, rfl⟩

theorem ingestCandidates_induct {I : MemoryStore → Prop} {candidates : List StoredMemory}
    (hstep : ∀ s candidate created s', candidate ∈ candidates → I s →
      s.ingestCandidate texts candidate now = some (created, s') → I s') :
    ∀ {s : MemoryStore}, I s → I (s.ingestCandidates texts now candidates).2 := by
  induction candidates with
  | nil => exact id
  | cons candidate candidates ih =>
    intro s h
    rw [ingestCandidates]
    cases hc : s.ingestCandidate texts candidate now with
    | none => exact h
    | some result =>
      obtain ⟨created, s'⟩ := result
      have h' := hstep s candidate created s' (by simp) h hc
      exact ih (fun s c created s' hmem => hstep s c created s' (by simp [hmem])) h'

end MemoryStore

end SelericSwarm
