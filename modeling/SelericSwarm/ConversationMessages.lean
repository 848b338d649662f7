import SelericSwarm.Table

/-! `applyRunEvent` of `office-ui/src/stores/conversation.ts`: what one run event makes of the messages. -/
namespace SelericSwarm.Drafts
open Keyed

/-- The code points that `trim` of a JavaScript string takes off its ends. -/
def trimmed : List Nat :=
  [9, 10, 11, 12, 13, 32, 160, 5760, 8192, 8193, 8194, 8195, 8196, 8197, 8198, 8199, 8200, 8201, 8202,
    8232, 8233, 8239, 8287, 12288, 65279]

def isTrimmed (c : Char) : Bool := c.toNat ∈ trimmed

def trim (text : String) : String :=
  String.ofList ((text.toList.dropWhile isTrimmed).reverse.dropWhile isTrimmed).reverse

/-- A field of a payload, as far as `optionalString` looks at it. -/
inductive Value
  | string (text : String)
  | other
  deriving DecidableEq

def optionalString : Value → Option String
  | .string text => if text = "" then none else some text
  | .other => none

inductive Role
  | user
  | assistant
  | system
  | tool
  deriving DecidableEq

inductive MessagePartType
  | text
  | table
  | code
  | source
  | toolCall
  | artifact
  | chart
  | agentStatus
  | approval
  | warning
  deriving DecidableEq

inductive Content
  | text (text : String)
  | source (evidenceId title : String) (excerpt : Option String)
  | other
  deriving DecidableEq

/-- `MessagePart`, without its metadata. -/
structure MessagePart where
  type : MessagePartType
  content : Content
  deriving DecidableEq

structure Message where
  id : String
  threadId : String
  workspaceId : String
  userId : Option String
  role : Role
  parts : List MessagePart
  runId : Option String
  parentMessageId : Option String
  createdAt : String
  updatedAt : Option String := none
  deriving DecidableEq

/-- A row of `payload.evidence` that is an object; `value` is what `String` makes of it, `none` where it is null. -/
structure EvidenceRow where
  evidenceId : Value
  metricOrFact : Value
  value : Option String

/-- The fields of a payload that reach the messages. `evidence` is `none` where it is not an array,
a row of it where it is not an object. -/
structure Payload where
  messageId : Value := .other
  delta : Value := .other
  finalResponse : Value := .other
  evidence : Option (List (Option EvidenceRow)) := none

structure ActivityEvent where
  id : String
  threadId : String
  workspaceId : String
  runId : Option String
  eventType : String
  summary : Option String
  payload : Payload
  createdAt : String

/-- What `applyRunEvent` reads and writes of the store. `refetches` are the threads whose messages it has asked for. -/
structure Store where
  selectedThreadId : Option String
  currentRunId : Option String
  messages : Dict String (List Message) := Dict.empty
  submitting : Bool := false
  error : Option String := none
  progress : Option String := none
  subscriptions : List String := []
  refetches : List String := []

def textOf (part : MessagePart) : Option String :=
  match part.content with
  | .text text => if part.type = .text then some text else none
  | _ => none

def messageText : Option Message → String
  | none => ""
  | some message => trim ("\n".intercalate (message.parts.filterMap textOf))

def Store.list (s : Store) (threadId : String) : List Message := s.messages.getD threadId []

def ActivityEvent.isDraft (event : ActivityEvent) : Bool :=
  event.eventType = "answer.delta" || event.eventType = "answer.reset"

def ActivityEvent.isReset (event : ActivityEvent) : Bool := event.eventType = "answer.reset"

def ActivityEvent.terminal (event : ActivityEvent) : Bool :=
  event.eventType ∈ ["run.completed", "run.failed", "run.cancelled"]

/-- The message that a draft event leaves in the place of `existing`. -/
def streamed (now : String) (event : ActivityEvent) (messageId nextText : String) (existing : Option Message) : Message :=
  { id := messageId
    threadId := event.threadId
    workspaceId := (existing.map (·.workspaceId)).getD "local"
    userId := none
    role := .assistant
    parts := [⟨.text, .text nextText⟩]
    runId := event.runId.or (existing.bind (·.runId))
    parentMessageId := existing.bind (·.parentMessageId)
    createdAt := (existing.map (·.createdAt)).getD now }

/-- The list with `message` for the one of its id, or behind the others. -/
def place (message : Message) (list : List Message) : List Message :=
  if (list.find? (·.id = message.id)).isSome then list.map fun m => if m.id = message.id then message else m
  else list ++ [message]

/-- The branch of `answer.delta` and `answer.reset`. -/
def Store.applyDraft (now : String) (s : Store) (event : ActivityEvent) : Store :=
  match optionalString event.payload.messageId with
  | none => s
  | some messageId =>
    let delta := if event.isReset then "" else (optionalString event.payload.delta).getD ""
    if !event.isReset ∧ delta = "" then s
    else
      let list := s.list event.threadId
      let existing := list.find? (·.id = messageId)
      let nextText := if event.isReset then "" else messageText existing ++ delta
      let message := streamed now event messageId nextText existing
      { s with messages := s.messages.set event.threadId (place message list) }

/-- `metric.replace(/^metric\./, "").replaceAll("_", " ")`. -/
def sourceTitle (metric : String) : String :=
  let text := metric.toList
  String.ofList ((if "metric.".toList.isPrefixOf text then text.drop 7 else text).map fun c => if c = '_' then ' ' else c)

def sourcePart (row : EvidenceRow) : Option MessagePart :=
  (optionalString row.evidenceId).map fun evidenceId =>
    ⟨.source, .source evidenceId (sourceTitle ((optionalString row.metricOrFact).getD "Evidence")) row.value⟩

def answerMessage (event : ActivityEvent) (answer : String) : Message :=
  { id := (optionalString event.payload.messageId).getD ("answer_" ++ event.runId.getD event.id)
    threadId := event.threadId
    workspaceId := event.workspaceId
    userId := none
    role := .assistant
    parts := ⟨.text, .text answer⟩ :: ((event.payload.evidence.getD []).filterMap id).filterMap sourcePart
    runId := event.runId
    parentMessageId := none
    createdAt := event.createdAt }

/-- The answer of a finished run in the place of the message with its id, or of an earlier one of its run. -/
def Store.applyAnswer (s : Store) (event : ActivityEvent) (text : String) : Store :=
  let answer := answerMessage event text
  let existing := s.list event.threadId
  let next :=
    match existing.findIdx? fun m => m.id = answer.id || (m.runId = answer.runId && m.role = .assistant) with
    | some index => existing.modify index fun m => { answer with updatedAt := m.updatedAt }
    | none => existing ++ [answer]
  { s with messages := s.messages.set event.threadId next, error := none }

def Store.applyOther (s : Store) (event : ActivityEvent) : Store :=
  let s :=
    if "agent.".toList.isPrefixOf event.eventType.toList ∧ event.summary.getD "" ≠ "" then
      { s with progress := event.summary }
    else s
  let ends := event.eventType = "answer.completed" ∨ event.terminal
  let s :=
    match optionalString event.payload.finalResponse with
    | some text => if ends then s.applyAnswer event text else s
    | none => s
  let s := if ends then { s with refetches := s.refetches ++ [event.threadId] } else s
  if event.terminal then
    { s with
      subscriptions := s.subscriptions.filter (· ≠ event.threadId)
      submitting := false
      currentRunId := none
      progress := none }
  else s

/-- The events that `applyRunEvent` does not turn away. -/
def Store.Accepts (s : Store) (event : ActivityEvent) : Prop :=
  s.selectedThreadId = some event.threadId ∧
    (s.currentRunId.getD "" = "" ∨ s.currentRunId = event.runId)

instance (s : Store) (event : ActivityEvent) : Decidable (s.Accepts event) := by
  unfold Store.Accepts; infer_instance

def Store.applyRunEvent (now : String) (s : Store) (event : ActivityEvent) : Store :=
  if ¬ s.Accepts event then s
  else if event.isDraft then s.applyDraft now event
  else s.applyOther event

/-- A run event and the moment at which it comes in. -/
structure Arrival where
  now : String
  event : ActivityEvent

def Store.applyAll (s : Store) (arrivals : List Arrival) : Store :=
  arrivals.foldl (fun s arrival => s.applyRunEvent arrival.now arrival.event) s

theorem Store.applyAll_concat (s : Store) (arrivals : List Arrival) (arrival : Arrival) :
    s.applyAll (arrivals ++ [arrival]) = (s.applyAll arrivals).applyRunEvent arrival.now arrival.event := by
  simp [applyAll]

@[simp] theorem optionalString_ne {value : Value} {text : String} (h : optionalString value = some text) : text ≠ "" := by
  cases value with
  | other => cases h
  | string t =>
    simp only [optionalString] at h
    split at h
    · cases h
    · cases h; assumption

@[simp] theorem messageText_text (message : Message) (text : String) (h : message.parts = [⟨.text, .text text⟩]) :
    messageText (some message) = trim text := by
  simp [messageText, h, textOf]

end SelericSwarm.Drafts
