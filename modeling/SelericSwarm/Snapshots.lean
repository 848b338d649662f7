import SelericSwarm.ApprovalSteps
import SelericSwarm.Search
import SelericSwarm.UnitOfWork

/-! The conversation stores on disk: `snapshot_conversations` dumps fifteen tables,
`restore_conversations` loads them into fresh repositories. -/
open List Option

namespace SelericSwarm
open Keyed

inductive SummaryMode where
  | extractive | deterministic
  deriving DecidableEq, Repr

structure ThreadSummary where
  id : String
  threadId : String
  workspaceId : String
  ownerUserId : String
  throughMessageId : Option String := none
  coveredMessageIds : List String := []
  sourceEvidenceIds : List String := []
  mode : SummaryMode := .extractive
  version : String := "phase6-v1"
  summary : String
  metadata : Payload := .empty
  createdAt : Moment

namespace Json

/-- `isinstance(value, dict)`. -/
def isDict : Json → Bool
  | .obj _ => true
  | _ => false

/-- `raw if isinstance(raw, dict) else {}`. -/
def asDict : Json → Payload
  | .obj entries => entries.foldl (fun d entry => d.set entry.1 entry.2) .empty
  | _ => .empty

/-- `(value or {}).items()`; a value without items raises. -/
def items? : Option Json → Option (List (String × Json))
  | none => some []
  | some (.obj entries) => some entries
  | some value => if value.truthy then none else some []

/-- `for row in value or []`; a value that is no iterable raises. -/
def rows? : Option Json → Option (List Json)
  | none => some []
  | some (.arr items) => some items
  | some (.obj entries) => some (entries.map fun entry => .str entry.1)
  | some (.str s) => some (s.toList.map fun c => .str c.toString)
  | some value => if value.truthy then none else some []

end Json

/-- `model_dump(mode="json")` and `model_validate` of one model; a value that does
not validate raises. -/
structure ModelCodec (α : Type) where
  dump : α → Json
  validate : Json → Option α
  Valid : α → Prop
  isDict_dump : ∀ a, Valid a → (dump a).isDict = true
  validate_dump : ∀ a, Valid a → validate (dump a) = some a

structure Codecs where
  thread : ModelCodec Thread
  message : ModelCodec Message
  run : ModelCodec Run
  runAttempt : ModelCodec RunAttempt
  activityEvent : ModelCodec ActivityEvent
  artifact : ModelCodec Artifact
  attachment : ModelCodec Attachment
  memoryItem : ModelCodec MemoryItem
  memoryPreference : ModelCodec MemoryPreference
  threadSummary : ModelCodec ThreadSummary
  approvalRequest : ModelCodec ApprovalRequest
  approvalDecisionEvent : ModelCodec ApprovalDecisionEvent
  rollbackRecord : ModelCodec RollbackRecord
  /-- `str(item)` of an item that is no text. -/
  str : Json → String

/-- The private dictionaries of the repositories. -/
structure ConversationTables where
  threads : Dict String Thread := .empty
  messages : Dict String Message := .empty
  runs : Dict String Run := .empty
  runAttempts : Dict String RunAttempt := .empty
  runEvents : Dict String (List ActivityEvent) := .empty
  runOutbox : Dict String Bool := .empty
  artifacts : Dict String Artifact := .empty
  attachments : Dict String Attachment := .empty
  memories : Dict String MemoryItem := .empty
  memoryUsage : Dict String (List String) := .empty
  memoryPreferences : Dict (String × String) MemoryPreference := .empty
  threadSummaries : Dict String ThreadSummary := .empty
  approvals : Dict String ApprovalRequest := .empty
  approvalEvents : Dict String (List ApprovalDecisionEvent) := .empty
  approvalRollbacks : Dict String RollbackRecord := .empty

/-! The helpers. -/

section Helpers
variable {β : Type}

def dumpDict (dump : β → Json) (items : Dict String β) : Json :=
  .obj (items.rows.map fun entry => (entry.1, dump entry.2))

/-- The loop of the loaders: a row raises, is passed over, or is loaded. -/
def loadDict (accept : Json → Option (Option β)) (value : Option Json) : Option (Dict String β) :=
  (Json.items? value).bind fun entries =>
    entries.foldlM (fun loaded entry => (accept entry.2).map fun row =>
      row.elim loaded fun row => loaded.set entry.1 row) .empty

variable (codec : ModelCodec β)

def dumpModels : Dict String β → Json := dumpDict codec.dump

def loadModels : Option Json → Option (Dict String β) :=
  loadDict fun value => if value.isDict then (codec.validate value).map some else some none

def dumpModelLists : Dict String (List β) → Json := dumpDict fun rows => .arr (rows.map codec.dump)

def loadModelLists : Option Json → Option (Dict String (List β)) :=
  loadDict fun
    | .arr rows => ((rows.filter Json.isDict).mapM codec.validate).map some
    | _ => some none

end Helpers

section Preferences
variable (codec : ModelCodec MemoryPreference)

def dumpPreferences (preferences : Dict (String × String) MemoryPreference) : Json :=
  .arr (preferences.values.map codec.dump)

def loadPreferences (value : Option Json) : Option (Dict (String × String) MemoryPreference) :=
  (Json.rows? value).bind fun rows =>
    rows.foldlM (fun loaded row =>
      if row.isDict then (codec.validate row).map fun preference =>
        loaded.set (preference.workspaceId, preference.ownerUserId) preference
      else some loaded) .empty

end Preferences

def dumpOutbox : Dict String Bool → Json := dumpDict .bool

def loadOutbox : Option Json → Option (Dict String Bool) := loadDict fun value => some (some value.truthy)

def dumpUsage : Dict String (List String) → Json := dumpDict fun rows => .arr (rows.map .str)

def loadUsage (str : Json → String) : Option Json → Option (Dict String (List String)) :=
  loadDict fun
    | .arr rows => some (some (rows.map fun
      | .str item => item
      | item => str item))
    | _ => some none

variable (codecs : Codecs)

def snapshotConversations (t : ConversationTables) : Payload where
  rows :=
    [("version", .num 1),
      ("threads", dumpModels codecs.thread t.threads),
      ("messages", dumpModels codecs.message t.messages),
      ("runs", dumpModels codecs.run t.runs),
      ("run_attempts", dumpModels codecs.runAttempt t.runAttempts),
      ("run_events", dumpModelLists codecs.activityEvent t.runEvents),
      ("run_outbox", dumpOutbox t.runOutbox),
      ("artifacts", dumpModels codecs.artifact t.artifacts),
      ("attachments", dumpModels codecs.attachment t.attachments),
      ("memories", dumpModels codecs.memoryItem t.memories),
      ("memory_usage", dumpUsage t.memoryUsage),
      ("memory_preferences", dumpPreferences codecs.memoryPreference t.memoryPreferences),
      ("thread_summaries", dumpModels codecs.threadSummary t.threadSummaries),
      ("approvals", dumpModels codecs.approvalRequest t.approvals),
      ("approval_events", dumpModelLists codecs.approvalDecisionEvent t.approvalEvents),
      ("approval_rollbacks", dumpModels codecs.rollbackRecord t.approvalRollbacks)]
  nodup := by simp

def restoreConversations (fresh : ConversationTables) (payload : Payload) : Option ConversationTables :=
  if payload.rows.isEmpty then some fresh
  else do
    let threads ← loadModels codecs.thread (payload.get? "threads")
    let messages ← loadModels codecs.message (payload.get? "messages")
    let runs ← loadModels codecs.run (payload.get? "runs")
    let runAttempts ← loadModels codecs.runAttempt (payload.get? "run_attempts")
    let runEvents ← loadModelLists codecs.activityEvent (payload.get? "run_events")
    let runOutbox ← loadOutbox (payload.get? "run_outbox")
    let artifacts ← loadModels codecs.artifact (payload.get? "artifacts")
    let attachments ← loadModels codecs.attachment (payload.get? "attachments")
    let memories ← loadModels codecs.memoryItem (payload.get? "memories")
    let memoryUsage ← loadUsage codecs.str (payload.get? "memory_usage")
    let memoryPreferences ← loadPreferences codecs.memoryPreference (payload.get? "memory_preferences")
    let threadSummaries ← loadModels codecs.threadSummary (payload.get? "thread_summaries")
    let approvals ← loadModels codecs.approvalRequest (payload.get? "approvals")
    let approvalEvents ← loadModelLists codecs.approvalDecisionEvent (payload.get? "approval_events")
    let approvalRollbacks ← loadModels codecs.rollbackRecord (payload.get? "approval_rollbacks")
    return {
      threads, messages, runs, runAttempts, runEvents, runOutbox, artifacts, attachments, memories
      memoryUsage, memoryPreferences, threadSummaries, approvals, approvalEvents, approvalRollbacks }

/-! What is dumped is loaded again. -/

section Helpers
variable {β : Type} {codec : ModelCodec β}

theorem loadDict_dumpDict {accept : Json → Option (Option β)} {dump : β → Json} {items : Dict String β}
    (h : ∀ entry ∈ items.rows, accept (dump entry.2) = some (some entry.2)) :
    loadDict accept (some (dumpDict dump items)) = some items := by
  have hload : ∀ rows : List (String × β), (∀ entry ∈ rows, accept (dump entry.2) = some (some entry.2)) →
      ∀ loaded : Dict String β, (rows.map fun entry => (entry.1, dump entry.2)).foldlM
        (fun loaded entry => (accept entry.2).map fun row =>
          row.elim loaded fun row => loaded.set entry.1 row) loaded =
        some (rows.foldl (fun d entry => d.set entry.1 entry.2) loaded) := by
    intro rows
    induction rows with
    | nil => exact fun _ _ => rfl
    | cons entry rows ih =>
      intro hrows loaded
      rw [map_cons, foldlM_cons, hrows entry (by simp)]
      exact ih (fun e he => hrows e (by simp [he])) _
  rw [loadDict, dumpDict]
  exact (hload items.rows h .empty).trans (congrArg some (Dict.foldl_set_empty items))

theorem loadModels_dumpModels {items : Dict String β} (h : ∀ entry ∈ items.rows, codec.Valid entry.2) :
    loadModels codec (some (dumpModels codec items)) = some items := by
  apply loadDict_dumpDict
  intro entry hentry
  have hvalid := h entry hentry
  rw [if_pos (codec.isDict_dump _ hvalid), codec.validate_dump _ hvalid]
  rfl

theorem loadModelLists_dumpModelLists {items : Dict String (List β)}
    (h : ∀ entry ∈ items.rows, ∀ a ∈ entry.2, codec.Valid a) :
    loadModelLists codec (some (dumpModelLists codec items)) = some items := by
  have hrows : ∀ rows : List β, (∀ a ∈ rows, codec.Valid a) →
      ((rows.map codec.dump).filter Json.isDict).mapM codec.validate = some rows := by
    intro rows hvalid
    induction rows with
    | nil => rfl
    | cons a rows ih =>
      have ha := hvalid a (by simp)
      rw [map_cons, filter_cons_of_pos (codec.isDict_dump a ha), mapM_cons,
        codec.validate_dump a ha, ih fun b hb => hvalid b (by simp [hb])]
      rfl
  apply loadDict_dumpDict
  intro entry hentry
  simp only [hrows entry.2 (h entry hentry), map_some]

end Helpers

theorem loadOutbox_dumpOutbox (items : Dict String Bool) :
    loadOutbox (some (dumpOutbox items)) = some items :=
  loadDict_dumpDict fun _ _ => rfl

theorem loadUsage_dumpUsage (str : Json → String) (items : Dict String (List String)) :
    loadUsage str (some (dumpUsage items)) = some items := by
  apply loadDict_dumpDict
  intro entry _
  show some (some ((entry.2.map Json.str).map _)) = _
  rw [List.map_map]
  exact congrArg (fun rows => some (some rows)) (List.map_id entry.2)

def FiledByOwner (preferences : Dict (String × String) MemoryPreference) : Prop :=
  ∀ entry ∈ preferences.rows, entry.1 = (entry.2.workspaceId, entry.2.ownerUserId)

theorem loadPreferences_dumpPreferences {codec : ModelCodec MemoryPreference}
    {preferences : Dict (String × String) MemoryPreference} (hfiled : FiledByOwner preferences)
    (h : ∀ entry ∈ preferences.rows, codec.Valid entry.2) :
    loadPreferences codec (some (dumpPreferences codec preferences)) = some preferences := by
  have hload : ∀ rows : List ((String × String) × MemoryPreference),
      (∀ entry ∈ rows, entry.1 = (entry.2.workspaceId, entry.2.ownerUserId) ∧ codec.Valid entry.2) →
      ∀ loaded : Dict (String × String) MemoryPreference,
        ((rows.map Prod.snd).map codec.dump).foldlM (fun loaded row =>
          if row.isDict then (codec.validate row).map fun preference =>
            loaded.set (preference.workspaceId, preference.ownerUserId) preference
          else some loaded) loaded =
        some (rows.foldl (fun d entry => d.set entry.1 entry.2) loaded) := by
    intro rows
    induction rows with
    | nil => exact fun _ _ => rfl
    | cons entry rows ih =>
      intro hrows loaded
      obtain ⟨hkey, hvalid⟩ := hrows entry (by simp)
      rw [map_cons, map_cons, foldlM_cons, if_pos (codec.isDict_dump _ hvalid),
        codec.validate_dump _ hvalid, foldl_cons, hkey]
      exact ih (fun e he => hrows e (by simp [he])) _
  rw [loadPreferences, dumpPreferences, Dict.values]
  exact (hload preferences.rows (fun entry he => ⟨hfiled entry he, h entry he⟩) .empty).trans
    (congrArg some (Dict.foldl_set_empty preferences))

/-- All records satisfy their models. -/
structure Codecs.Holds (codecs : Codecs) (t : ConversationTables) : Prop where
  threads : ∀ entry ∈ t.threads.rows, codecs.thread.Valid entry.2
  messages : ∀ entry ∈ t.messages.rows, codecs.message.Valid entry.2
  runs : ∀ entry ∈ t.runs.rows, codecs.run.Valid entry.2
  runAttempts : ∀ entry ∈ t.runAttempts.rows, codecs.runAttempt.Valid entry.2
  runEvents : ∀ entry ∈ t.runEvents.rows, ∀ event ∈ entry.2, codecs.activityEvent.Valid event
  artifacts : ∀ entry ∈ t.artifacts.rows, codecs.artifact.Valid entry.2
  attachments : ∀ entry ∈ t.attachments.rows, codecs.attachment.Valid entry.2
  memories : ∀ entry ∈ t.memories.rows, codecs.memoryItem.Valid entry.2
  memoryPreferences : ∀ entry ∈ t.memoryPreferences.rows, codecs.memoryPreference.Valid entry.2
  threadSummaries : ∀ entry ∈ t.threadSummaries.rows, codecs.threadSummary.Valid entry.2
  approvals : ∀ entry ∈ t.approvals.rows, codecs.approvalRequest.Valid entry.2
  approvalEvents : ∀ entry ∈ t.approvalEvents.rows, ∀ event ∈ entry.2,
    codecs.approvalDecisionEvent.Valid event
  approvalRollbacks : ∀ entry ∈ t.approvalRollbacks.rows, codecs.rollbackRecord.Valid entry.2

theorem restoreConversations_snapshot {codecs : Codecs} {t : ConversationTables}
    (hvalid : codecs.Holds t) (hfiled : FiledByOwner t.memoryPreferences) (fresh : ConversationTables) :
    restoreConversations codecs fresh (snapshotConversations codecs t) = some t := by
  have hnonempty : (snapshotConversations codecs t).rows.isEmpty = false := rfl
  have hthreads : loadModels codecs.thread ((snapshotConversations codecs t).get? "threads") =
      some t.threads := loadModels_dumpModels hvalid.threads
  have hmessages : loadModels codecs.message ((snapshotConversations codecs t).get? "messages") =
      some t.messages := loadModels_dumpModels hvalid.messages
  have hruns : loadModels codecs.run ((snapshotConversations codecs t).get? "runs") =
      some t.runs := loadModels_dumpModels hvalid.runs
  have hattempts : loadModels codecs.runAttempt
      ((snapshotConversations codecs t).get? "run_attempts") = some t.runAttempts :=
    loadModels_dumpModels hvalid.runAttempts
  have hevents : loadModelLists codecs.activityEvent
      ((snapshotConversations codecs t).get? "run_events") = some t.runEvents :=
    loadModelLists_dumpModelLists hvalid.runEvents
  have houtbox : loadOutbox ((snapshotConversations codecs t).get? "run_outbox") =
      some t.runOutbox := loadOutbox_dumpOutbox t.runOutbox
  have hartifacts : loadModels codecs.artifact ((snapshotConversations codecs t).get? "artifacts") =
      some t.artifacts := loadModels_dumpModels hvalid.artifacts
  have hattachments : loadModels codecs.attachment
      ((snapshotConversations codecs t).get? "attachments") = some t.attachments :=
    loadModels_dumpModels hvalid.attachments
  have hmemories : loadModels codecs.memoryItem ((snapshotConversations codecs t).get? "memories") =
      some t.memories := loadModels_dumpModels hvalid.memories
  have husage : loadUsage codecs.str ((snapshotConversations codecs t).get? "memory_usage") =
      some t.memoryUsage := loadUsage_dumpUsage codecs.str t.memoryUsage
  have hpreferences : loadPreferences codecs.memoryPreference
      ((snapshotConversations codecs t).get? "memory_preferences") = some t.memoryPreferences :=
    loadPreferences_dumpPreferences hfiled hvalid.memoryPreferences
  have hsummaries : loadModels codecs.threadSummary
      ((snapshotConversations codecs t).get? "thread_summaries") = some t.threadSummaries :=
    loadModels_dumpModels hvalid.threadSummaries
  have happrovals : loadModels codecs.approvalRequest
      ((snapshotConversations codecs t).get? "approvals") = some t.approvals :=
    loadModels_dumpModels hvalid.approvals
  have hdecisions : loadModelLists codecs.approvalDecisionEvent
      ((snapshotConversations codecs t).get? "approval_events") = some t.approvalEvents :=
    loadModelLists_dumpModelLists hvalid.approvalEvents
  have hrollbacks : loadModels codecs.rollbackRecord
      ((snapshotConversations codecs t).get? "approval_rollbacks") = some t.approvalRollbacks :=
    loadModels_dumpModels hvalid.approvalRollbacks
  rw [restoreConversations, hnonempty]
  simp only [hthreads, hmessages, hruns, hattempts, hevents, houtbox, hartifacts, hattachments,
    hmemories, husage, hpreferences, hsummaries, happrovals, hdecisions, hrollbacks,
    bind_eq_bind, bind_some, Option.pure_def]
  rfl

/-! The states that calls of the repositories reach. -/

attribute [ext] RunRepository MemoryRepository ApprovalRepository

inductive ApprovalCall where
  | create (approval : ApprovalRequest)
  | transition (approvalId : String) (expected : ApprovalStatus) (approval : ApprovalRequest)
      (event : ApprovalDecisionEvent)
  | addRollback (record : RollbackRecord)

def ApprovalCall.perform (s : ApprovalRepository) : ApprovalCall → ApprovalRepository
  | .create approval => (s.create approval).2
  | .transition approvalId expected approval event => (s.transition approvalId expected approval event).2
  | .addRollback record => (s.addRollback record).2

structure ConversationState where
  stores : ∀ r : Repository, r.Store := Repository.empty
  threadSummaries : Table ThreadSummary.id := .empty
  approvals : ApprovalRepository := {}
  /-- The copies that units of work have taken. -/
  saved : ∀ r : Repository, List r.Store := fun _ => []

inductive ConversationStep where
  | call (r : Repository) (call : r.Call)
  | summarize (summary : ThreadSummary)
  | decide (call : ApprovalCall)
  | save (r : Repository)
  | restore (r : Repository) (copy : Nat)

namespace ConversationState

def step (s : ConversationState) : ConversationStep → Option ConversationState
  | .call r call => some
    { s with stores := Function.update s.stores r (Repository.perform r call (s.stores r)).2 }
  | .summarize summary => some { s with threadSummaries := s.threadSummaries.setdefault summary }
  | .decide call => some { s with approvals := call.perform s.approvals }
  | .save r => some { s with saved := Function.update s.saved r (s.saved r ++ [s.stores r]) }
  | .restore r copy => ((s.saved r)[copy]?).map fun store =>
    { s with stores := Function.update s.stores r store }

def tables (s : ConversationState) : ConversationTables where
  threads := Table.toDict (s.stores .threads)
  messages := Table.toDict (s.stores .messages)
  runs := (s.stores .runs).items.toDict
  runAttempts := (s.stores .runs).attempts.toDict
  runEvents := (s.stores .runs).events
  runOutbox := (s.stores .runs).outbox
  artifacts := Table.toDict (s.stores .artifacts)
  attachments := Table.toDict (s.stores .attachments)
  memories := (s.stores .memories).items.toDict
  memoryUsage := (s.stores .memories).usage
  memoryPreferences := (s.stores .memories).preferences
  threadSummaries := s.threadSummaries.toDict
  approvals := s.approvals.items.toDict
  approvalEvents := s.approvals.events
  approvalRollbacks := s.approvals.rollbacks.toDict

/-- The tables are all there is to the repositories. -/
structure Same (s s' : ConversationState) : Prop where
  stores : s.stores = s'.stores
  threadSummaries : s.threadSummaries = s'.threadSummaries
  approvals : s.approvals = s'.approvals

theorem same_of_tables {s s' : ConversationState} (h : s.tables = s'.tables) : Same s s' where
  stores := by
    funext r
    cases r with
    | threads => exact Table.toDict_injective (congrArg (·.threads) h)
    | messages => exact Table.toDict_injective (congrArg (·.messages) h)
    | runs =>
      exact RunRepository.ext (Table.toDict_injective (congrArg (·.runs) h))
        (Table.toDict_injective (congrArg (·.runAttempts) h)) (congrArg (·.runEvents) h)
        (congrArg (·.runOutbox) h)
    | artifacts => exact Table.toDict_injective (congrArg (·.artifacts) h)
    | attachments => exact Table.toDict_injective (congrArg (·.attachments) h)
    | memories =>
      exact MemoryRepository.ext (Table.toDict_injective (congrArg (·.memories) h))
        (congrArg (·.memoryUsage) h) (congrArg (·.memoryPreferences) h)
  threadSummaries := Table.toDict_injective (congrArg (·.threadSummaries) h)
  approvals := ApprovalRepository.ext (Table.toDict_injective (congrArg (·.approvals) h))
    (congrArg (·.approvalEvents) h) (Table.toDict_injective (congrArg (·.approvalRollbacks) h))

/-- Preferences are filed in the repository and in every copy of it. -/
structure AllFiled (s : ConversationState) : Prop where
  stored : FiledByOwner (s.stores .memories).preferences
  saved : ∀ copy ∈ s.saved .memories, FiledByOwner copy.preferences

theorem filedByOwner_perform {s : MemoryRepository} (h : FiledByOwner s.preferences) (call : MemoryCall) :
    FiledByOwner (call.perform s).2.preferences := by
  cases call with
  | create memory | recordUsage runId memories now => exact h
  | update memory =>
    simp only [MemoryCall.perform, MemoryRepository.update]
    split
    · exact h
    · split
      · exact h
      · exact h
  | setPreference preference =>
    intro entry hentry
    obtain rfl | hentry := Table.mem_put hentry
    · rfl
    · exact h entry hentry

theorem AllFiled.step {s s' : ConversationState} {a : ConversationStep} (h : AllFiled s)
    (ha : s.step a = some s') : AllFiled s' := by
  cases a with
  | call r call =>
    obtain rfl := Option.some.inj ha
    refine { stored := ?_, saved := h.saved }
    cases r with
    | memories =>
      have hupdate := Function.update_self Repository.memories
        (Repository.perform .memories call (s.stores .memories)).2 s.stores
      exact hupdate ▸ filedByOwner_perform h.stored call
    | _ => simpa using h.stored
  | summarize summary | decide call =>
    obtain rfl := Option.some.inj ha
    exact { stored := h.stored, saved := h.saved }
  | save r =>
    obtain rfl := Option.some.inj ha
    refine { stored := h.stored, saved := ?_ }
    cases r with
    | memories =>
      intro copy hcopy
      simp only [Function.update_self, mem_append, mem_singleton] at hcopy
      obtain hcopy | rfl := hcopy
      · exact h.saved copy hcopy
      · exact h.stored
    | _ => simpa using h.saved
  | restore r copy =>
    obtain ⟨store, hstore, rfl⟩ := map_eq_some_iff.mp ha
    refine { stored := ?_, saved := h.saved }
    cases r with
    | memories => simpa using h.saved store (mem_of_getElem? hstore)
    | _ => simpa using h.stored

theorem AllFiled.initial : AllFiled {} where
  stored := by
    intro entry hentry
    cases hentry
  saved := by simp

end ConversationState

/-- What the file holds after `json` has written and read it back is restored
to the same tables, and no other state of the repositories has these tables. -/
theorem restore_snapshot (codecs : Codecs) (json : Json → Json) (hjson : ∀ value, json value = value)
    {steps : List ConversationStep} {s : ConversationState}
    (hs : Machine.exec ConversationState.step {} steps = some s) (hvalid : codecs.Holds s.tables)
    (fresh : ConversationTables) :
    restoreConversations codecs fresh
        (json (.obj (snapshotConversations codecs s.tables).rows)).asDict = some s.tables ∧
      ∀ restored : ConversationState, restored.tables = s.tables → ConversationState.Same restored s := by
  refine ⟨?_, fun restored => ConversationState.same_of_tables⟩
  have hfiled := (Machine.invariant (fun _ _ _ hi hstep => hi.step hstep) ConversationState.AllFiled.initial hs).stored
  have hpayload : (json (.obj (snapshotConversations codecs s.tables).rows)).asDict =
      snapshotConversations codecs s.tables := by
    rw [hjson]
    exact Dict.foldl_set_empty (snapshotConversations codecs s.tables)
  rw [hpayload]
  exact restoreConversations_snapshot hvalid hfiled fresh

/-! An opted-out owner and a submitted run. -/

def preferenceCodec : ModelCodec MemoryPreference where
  dump preference := .obj
    [("workspace_id", .str preference.workspaceId), ("owner_user_id", .str preference.ownerUserId),
      ("opted_out", .bool preference.optedOut), ("updated_at", .str "1970-01-01T00:00:00Z")]
  validate
    | .obj [("workspace_id", .str workspaceId), ("owner_user_id", .str ownerUserId),
        ("opted_out", .bool optedOut), ("updated_at", .str "1970-01-01T00:00:00Z")] =>
      some { workspaceId, ownerUserId, optedOut, updatedAt := 0 }
    | _ => none
  Valid preference := preference.updatedAt = 0
  isDict_dump _ _ := rfl
  validate_dump := by
    rintro ⟨workspaceId, ownerUserId, optedOut, updatedAt⟩ rfl
    rfl

def noCodec {α : Type} : ModelCodec α where
  dump _ := .null
  validate _ := none
  Valid _ := False
  isDict_dump _ := False.elim
  validate_dump _ := False.elim

def preferenceCodecs : Codecs where
  thread := noCodec
  message := noCodec
  run := noCodec
  runAttempt := noCodec
  activityEvent := noCodec
  artifact := noCodec
  attachment := noCodec
  memoryItem := noCodec
  memoryPreference := preferenceCodec
  threadSummary := noCodec
  approvalRequest := noCodec
  approvalDecisionEvent := noCodec
  rollbackRecord := noCodec
  str _ := ""

def optedOutOwner : List ConversationStep :=
  [.call .memories (.setPreference { workspaceId := "w", ownerUserId := "u", optedOut := true, updatedAt := 0 }),
    .call .runs (.addOutbox "r")]

theorem restore_snapshot_optedOutOwner : ∃ s,
    Machine.exec ConversationState.step {} optedOutOwner = some s ∧
    restoreConversations preferenceCodecs {}
      (Json.obj (snapshotConversations preferenceCodecs s.tables).rows).asDict = some s.tables := by
  have hs : Machine.exec ConversationState.step {} optedOutOwner = some _ := rfl
  refine ⟨_, hs, (restore_snapshot preferenceCodecs id (fun _ => rfl) hs ?_ {}).1⟩
  constructor
  case memoryPreferences =>
    intro entry hentry
    obtain rfl := mem_singleton.mp hentry
    rfl
  all_goals
    intro entry hentry
    cases hentry

end SelericSwarm
