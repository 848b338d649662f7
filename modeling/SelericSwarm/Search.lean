import SelericSwarm.Conversations
import SelericSwarm.Missions
import SelericSwarm.RunRepository

/-! `InMemorySearchRepository.search` over the five conversation stores, with
`reciprocal_rank_fusion`. -/
namespace SelericSwarm
open Keyed

inductive SearchKind where
  | thread | message | memory | artifact | report | run
  deriving DecidableEq, Repr

def SearchKind.value : SearchKind → String
  | .thread => "thread"
  | .message => "message"
  | .memory => "memory"
  | .artifact => "artifact"
  | .report => "report"
  | .run => "run"

/-- Python's text functions, `str` and `json.dumps`. -/
structure Texts where
  split : String → List String
  casefold : String → String
  /-- How often the first text occurs in the second; it is in it when it does. -/
  count : String → String → Nat
  str : Json → String
  dumps : Json → String
  dumpsMetadata : RunMetadata → String

/-- Python's floats. -/
structure Floats (Score : Type) where
  literal : Rat → Score
  add : Score → Score → Score
  div : Score → Score → Score
  lt : Score → Score → Bool
  eq : Score → Score → Bool

structure SearchResult (Score : Type) where
  id : String
  kind : SearchKind
  title : String
  snippet : String := ""
  threadId : Option String := none
  runId : Option String := none
  lexicalRank : Option Nat := none
  vectorRank : Option Nat := none
  recencyRank : Option Nat := none
  score : Score
  createdAt : Moment
  metadata : Payload := .empty

/-! The `value.title()` of the enumerations. -/

def MessageRole.title : MessageRole → String
  | .user => "User"
  | .assistant => "Assistant"
  | .system => "System"
  | .tool => "Tool"

def RunStatus.title : RunStatus → String
  | .queued => "Queued"
  | .running => "Running"
  | .waiting => "Waiting"
  | .completed => "Completed"
  | .failed => "Failed"
  | .cancelled => "Cancelled"

def RunStatus.value : RunStatus → String
  | .queued => "QUEUED"
  | .running => "RUNNING"
  | .waiting => "WAITING"
  | .completed => "COMPLETED"
  | .failed => "FAILED"
  | .cancelled => "CANCELLED"

def MemoryType.title : MemoryType → String
  | .fact => "Fact"
  | .decision => "Decision"
  | .preference => "Preference"
  | .outcome => "Outcome"
  | .constraint => "Constraint"
  | .definition => "Definition"
  | .summary => "Summary"
  | .instruction => "Instruction"

def MemoryStatus.value : MemoryStatus → String
  | .candidate => "CANDIDATE"
  | .active => "ACTIVE"
  | .superseded => "SUPERSEDED"
  | .archived => "ARCHIVED"
  | .deleted => "DELETED"
  | .pendingConsent => "PENDING_CONSENT"

def Json.truthy : Json → Bool
  | .null => false
  | .bool b => b
  | .num n => n ≠ 0
  | .str s => s ≠ ""
  | .arr items => !items.isEmpty
  | .obj entries => !entries.isEmpty

namespace RunRepository

/-- `sorted(..., key=created_at, reverse=True)[:max(1, limit)]`. -/
def listForOwner (s : RunRepository) (workspaceId userId : String) (limit : Int) : List Run :=
  ((s.items.rows.filter fun item => item.workspaceId = workspaceId &&
    item.requestedByUserId = userId).insertionSort fun a b => b.createdAt ≤ a.createdAt).take
      (max 1 limit).toNat

end RunRepository

section Fusion
variable {Score : Type} (floats : Floats Score)

inductive Ranking where
  | lexical | vector | recency
  deriving DecidableEq, Repr

def Ranking.weight : Ranking → Rat
  | .lexical => 1
  | .vector => 4 / 5
  | .recency => 1 / 4

def SearchResult.ranked (item : SearchResult Score) (ranking : Ranking) (rank : Nat) : SearchResult Score :=
  match ranking with
  | .lexical => { item with lexicalRank := some rank }
  | .vector => { item with vectorRank := some rank }
  | .recency => { item with recencyRank := some rank }

abbrev SearchKey := SearchKind × String

def SearchResult.key (item : SearchResult Score) : SearchKey := (item.kind, item.id)

structure Fused (Score : Type) where
  items : Dict SearchKey (SearchResult Score) := .empty
  scores : Dict SearchKey Score := .empty

/-- One item of one ranked list, its rank counted from 1; `k` is 60. -/
def Fused.add (fused : Fused Score) (ranking : Ranking) (item : SearchResult Score) (rank : Nat) :
    Fused Score where
  items := fused.items.set item.key ((fused.items.getD item.key item).ranked ranking rank)
  scores := fused.scores.set item.key (floats.add (fused.scores.getD item.key (floats.literal 0))
    (floats.div (floats.literal ranking.weight) (floats.literal ((60 + rank : Nat) : Rat))))

def Fused.addAll (fused : Fused Score) (ranking : Ranking) (items : List (SearchResult Score)) :
    Fused Score :=
  (items.zipIdx 1).foldl (fun fused entry => fused.add floats ranking entry.1 entry.2) fused

/-- `(score, created_at)` of the first is not below that of the second. -/
def SearchResult.notBelow (a b : SearchResult Score) : Bool :=
  floats.lt b.score a.score || (floats.eq b.score a.score && b.createdAt ≤ a.createdAt)

def reciprocalRankFusion (lexical vector recency : List (SearchResult Score)) :
    List (SearchResult Score) :=
  let fused := (((({} : Fused Score).addAll floats .lexical lexical).addAll floats .vector vector).addAll
    floats .recency recency)
  (fused.items.rows.map fun entry =>
    { entry.2 with score := fused.scores.getD entry.1 (floats.literal 0) }).insertionSort
      fun a b => a.notBelow floats b

end Fusion

structure SearchRepository (Score : Type) where
  threads : ThreadRepository
  messages : MessageRepository
  runs : RunRepository
  artifacts : ArtifactRepository
  memories : MemoryRepository
  vectorHook : Option (String → String → String → Int → List (SearchResult Score)) := none

namespace SearchRepository
variable {Score : Type} (texts : Texts) (floats : Floats Score)

def text : Json → String
  | .str s => s
  | value => texts.dumps value

def threadResult (thread : Thread) : SearchResult Score where
  id := thread.id
  kind := .thread
  title := (truthy thread.title).getD "Untitled thread"
  snippet := text texts (.obj thread.metadata.rows)
  threadId := some thread.id
  score := floats.literal 0
  createdAt := thread.updatedAt

def messageResult (thread : Thread) (message : Message) : SearchResult Score where
  id := message.id
  kind := .message
  title := message.role.title ++ " message"
  snippet := " ".intercalate (message.parts.map fun part => text texts part.content)
  threadId := some thread.id
  runId := message.runId
  score := floats.literal 0
  createdAt := message.createdAt

def artifactKind (allowed : List String) (artifact : Artifact) : SearchKind :=
  if SearchKind.report.value ∈ allowed ∧ artifact.artifactType = "report" then .report else .artifact

def artifactResult (allowed : List String) (thread : Thread) (artifact : Artifact) : SearchResult Score where
  id := artifact.id
  kind := artifactKind allowed artifact
  title := ((artifact.payload.get? "title").filter Json.truthy).elim artifact.artifactType texts.str
  snippet := text texts (.obj artifact.payload.rows)
  threadId := some thread.id
  runId := artifact.runId
  score := floats.literal 0
  createdAt := artifact.createdAt
  metadata := Dict.empty.set "artifact_type" (.str artifact.artifactType)

def memoryResult (memory : MemoryItem) : SearchResult Score where
  id := memory.id
  kind := .memory
  title := memory.type.title
  snippet := (truthy (some memory.normalizedContent)).getD (text texts memory.content)
  threadId := memory.threadId
  runId := memory.sourceRunId
  score := floats.literal 0
  createdAt := memory.updatedAt
  metadata := (Dict.empty.set "status" (.str memory.status.value)).set "provenance"
    (.obj memory.provenance.rows)

def runResult (run : Run) : SearchResult Score where
  id := run.id
  kind := .run
  title := "Run " ++ run.status.title
  snippet := texts.dumpsMetadata run.metadata
  threadId := some run.threadId
  runId := some run.id
  score := floats.literal 0
  createdAt := run.createdAt
  metadata := Dict.empty.set "status" (.str run.status.value)

def defaultKinds : List String := ["thread", "message", "memory", "artifact", "run"]

def foundIn (s : SearchRepository Score) (workspaceId : String) (allowed : List String) (thread : Thread) :
    List (SearchResult Score) :=
  (if SearchKind.thread.value ∈ allowed then [threadResult texts floats thread] else []) ++
  (if SearchKind.message.value ∈ allowed then
    (s.messages.listForThread thread.id 1000).map (messageResult texts floats thread) else []) ++
  (if SearchKind.artifact.value ∈ allowed ∨ SearchKind.report.value ∈ allowed then
    ((s.artifacts.listForContext workspaceId thread.id).filter fun artifact =>
      (artifactKind allowed artifact).value ∈ allowed).map (artifactResult texts floats allowed thread)
    else [])

def found (s : SearchRepository Score) (workspaceId ownerUserId : String) (allowed : List String)
    (now : Moment) : List (SearchResult Score) :=
  let threads := s.threads.listForOwner workspaceId ownerUserId 1000 none
  threads.flatMap (s.foundIn texts floats workspaceId allowed) ++
  (if SearchKind.memory.value ∈ allowed then
    (s.memories.list workspaceId ownerUserId none none true 1000 now).map (memoryResult texts floats)
    else []) ++
  (if SearchKind.run.value ∈ allowed then
    ((s.runs.listForOwner workspaceId ownerUserId 1000).filter fun run =>
      run.threadId ∈ threads.map (·.id)).map (runResult texts floats)
    else [])

/-- The text a term is looked up in. -/
def searched (item : SearchResult Score) : String := texts.casefold (item.title ++ " " ++ item.snippet)

def hits (terms : List String) (item : SearchResult Score) : Nat :=
  (terms.map fun term => texts.count term (searched texts item)).sum

def lexical (terms : List String) (found : List (SearchResult Score)) : List (SearchResult Score) :=
  (found.filter fun item => terms.all fun term => texts.count term (searched texts item) ≠ 0).insertionSort
    fun a b => hits texts terms b ≤ hits texts terms a

def candidates (s : SearchRepository Score) (query workspaceId ownerUserId : String) (limit : Int) :
    List (SearchResult Score) :=
  s.vectorHook.elim [] fun hook => hook query workspaceId ownerUserId (limit * 3)

/-- A query embedding is computed and dropped: the hook has its own. -/
def search (s : SearchRepository Score) (query workspaceId ownerUserId : String)
    (kinds : Option (List String)) (limit : Int) (now : Moment) : List (SearchResult Score) :=
  let terms := (texts.split query).map texts.casefold
  if terms = [] then []
  else
    let allowed := (kinds.filter (· ≠ [])).getD defaultKinds
    let found := s.found texts floats workspaceId ownerUserId allowed now
    let lexical := lexical texts terms found
    let recency := lexical.insertionSort fun a b => b.createdAt ≤ a.createdAt
    let vectors := (s.candidates query workspaceId ownerUserId limit).filter fun item =>
      item.key ∈ found.map SearchResult.key
    (reciprocalRankFusion floats lexical vectors recency).take (max 1 limit).toNat

end SearchRepository

/-! Fusion invents nothing: what it returns is one of what it is given. -/

section Fusion
variable {Score : Type} {floats : Floats Score}

@[simp] theorem SearchResult.ranked_key (item : SearchResult Score) (ranking : Ranking) (rank : Nat) :
    (item.ranked ranking rank).key = item.key := by cases ranking <;> rfl

/-- Every fused item is filed under its own key, one of the given. -/
def Fused.Within (fused : Fused Score) (keys : List SearchKey) : Prop :=
  ∀ entry ∈ fused.items.rows, entry.2.key = entry.1 ∧ entry.1 ∈ keys

variable {keys : List SearchKey}

theorem Fused.Within.add {fused : Fused Score} (h : fused.Within keys) (ranking : Ranking)
    {item : SearchResult Score} (hitem : item.key ∈ keys) (rank : Nat) :
    (fused.add floats ranking item rank).Within keys := by
  intro entry hentry
  obtain rfl | hentry := Table.mem_put hentry
  · refine ⟨?_, hitem⟩
    rw [SearchResult.ranked_key, Dict.getD, Dict.get?]
    cases hget : Table.get? fused.items item.key with
    | none => rfl
    | some stored =>
      have hkey : stored.1 = item.key := Table.key_of_get? hget
      exact (h stored (Table.mem_of_get? hget)).1.trans hkey
  · exact h entry hentry

theorem Fused.Within.foldl (ranking : Ranking) (entries : List (SearchResult Score × Nat))
    (hentries : ∀ entry ∈ entries, entry.1.key ∈ keys) :
    ∀ {fused : Fused Score}, fused.Within keys →
      (entries.foldl (fun fused entry => fused.add floats ranking entry.1 entry.2) fused).Within keys := by
  induction entries with
  | nil => exact id
  | cons entry entries ih =>
    intro fused h
    exact ih (fun e he => hentries e (by simp [he])) (h.add ranking (hentries entry (by simp)) entry.2)

theorem Fused.Within.addAll {fused : Fused Score} (h : fused.Within keys) (ranking : Ranking)
    (items : List (SearchResult Score)) (hitems : ∀ item ∈ items, item.key ∈ keys) :
    (fused.addAll floats ranking items).Within keys :=
  foldl ranking (items.zipIdx 1) (fun _ hentry => hitems _ (List.fst_mem_of_mem_zipIdx hentry)) h

theorem key_of_mem_fusion {lexical vector recency : List (SearchResult Score)}
    (hlexical : ∀ item ∈ lexical, item.key ∈ keys) (hvector : ∀ item ∈ vector, item.key ∈ keys)
    (hrecency : ∀ item ∈ recency, item.key ∈ keys) {item : SearchResult Score}
    (h : item ∈ reciprocalRankFusion floats lexical vector recency) : item.key ∈ keys := by
  have hempty : ({} : Fused Score).Within keys := by
    intro entry hentry
    cases hentry
  simp only [reciprocalRankFusion, List.mem_insertionSort, List.mem_map] at h
  obtain ⟨entry, hentry, rfl⟩ := h
  obtain ⟨hkey, hmem⟩ := (((hempty.addAll .lexical lexical hlexical).addAll .vector vector hvector).addAll
    .recency recency hrecency) entry hentry
  exact hkey ▸ hmem

end Fusion

end SelericSwarm
