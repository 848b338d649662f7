import Mathlib.Logic.Function.Basic
import SelericSwarm.Machine

/-! The conversation store of the client: what the user does, the requests it leads to and their completions
in any order, and the event streams of the runs. Ids are numbers, and requests wait for an answer together
with what the action that made them has captured. -/
namespace SelericSwarm.Client

/-- The id the server gives a message; the persisted version of a submission's message is named after it. -/
inductive ServerId where
  | stored (submission : Nat)
  | other (n : Nat)
  deriving DecidableEq

inductive MessageId where
  | optimistic (submission : Nat)
  | server (id : ServerId)
  deriving DecidableEq

structure Message where
  id : MessageId
  fromUser : Bool := false
  runId : Option Nat := none
  deriving DecidableEq

/-- `subscribeToRunEvents`: `stopped` once it is aborted, `closed` once its loop has ended. -/
structure Subscription where
  threadId : Nat
  runId : Nat
  stopped : Bool := false
  closed : Bool := false
  deriving DecidableEq

/-- Where an action waits. -/
inductive Waiting where
  | listThreads
  | createThread
  | loadThread (id generation : Nat)
  | archiveThread (id : Nat) (wasSelected : Bool)
  | createForSubmit (generation : Nat)
  | submitMessage (generation threadId : Nat)
  | cancelAccepted (generation runId : Nat)
  | cancelRun (runId : Nat) (threadId : Option Nat)
  | refreshCancelled (threadId : Nat)
  | refreshEvent (threadId : Nat) (runId : Option Nat) (terminal : Bool)
  deriving DecidableEq

/-- A request, and the number of the user action it belongs to; 0 where an event has led to it. -/
structure Pending where
  action : Nat
  waiting : Waiting
  deriving DecidableEq

inductive Failure where
  | conflict
  | missing
  | other
  deriving DecidableEq

/-- `history` are a thread's messages, and the runs of which its events tell the end. -/
inductive Answer where
  | threads (ids : List Nat)
  | thread (id : Nat)
  | history (messages : List Message) (ended : List Nat)
  | run (id : Nat)
  | done
  | failed (why : Failure)

inductive UserAction where
  | loadThreads
  | createThread
  | selectThread (id : Nat)
  | clearSelection
  | archiveThread (id : Nat)
  | submit
  | cancelRun
  deriving DecidableEq

inductive EventKind where
  | progress
  | draft (message : ServerId)
  | answer (terminal : Bool)
  deriving DecidableEq

/-- `answer.completed` and the terminal events are `answer`; `streamed` is the id of the answer they carry. -/
structure RunEvent where
  threadId : Nat
  runId : Option Nat
  kind : EventKind
  streamed : Option ServerId := none

/-- `actions` numbers the user's actions from 1 on; `opened` are all subscriptions there ever were. -/
structure ConversationStore where
  threads : List Nat := []
  selectedThreadId : Option Nat := none
  messages : Nat → List Message := fun _ => []
  submitting : Bool := false
  currentRunId : Option Nat := none
  selectionGeneration : Nat := 0
  submissionGeneration : Nat := 0
  cancelledSubmissions : List Nat := []
  subscriptions : Nat → Option Nat := fun _ => none
  opened : List Subscription := []
  actions : Nat := 1
  pending : List Pending := []

/-- `complete` is the answer to a pending request; `event` and `close` are what a subscription calls. -/
inductive StoreStep where
  | user (action : UserAction)
  | complete (request : Nat) (answer : Answer)
  | event (subscription : Nat) (event : RunEvent)
  | close (subscription : Nat)

/-- The submission that goes on with the answer. -/
def Waiting.generation? : Waiting → Option Nat
  | .createForSubmit generation | .submitMessage generation _ | .cancelAccepted generation _ => some generation
  | _ => none

def Subscription.stop (sub : Subscription) : Subscription := { sub with stopped := true }

namespace ConversationStore
variable (s : ConversationStore)

def await (action : Nat) (waiting : Waiting) : ConversationStore := { s with pending := s.pending ++ [⟨action, waiting⟩] }

def putMessages (threadId : Nat) (messages : List Message) : ConversationStore :=
  { s with messages := Function.update s.messages threadId messages }

/-- `subscriptions.get(threadId)?.()`, and `delete`. -/
def stop (threadId : Nat) : ConversationStore :=
  { s with
    opened := (s.subscriptions threadId).elim s.opened fun k => s.opened.modify k Subscription.stop
    subscriptions := Function.update s.subscriptions threadId none }

def isCurrent (k : Nat) (sub : Subscription) : Bool := s.subscriptions sub.threadId = some k

/-- `subscriptions.forEach((stop) => stop())`, and `clear`. -/
def stopAll : ConversationStore :=
  { s with
    opened := s.opened.mapIdx fun k sub => if s.isCurrent k sub then sub.stop else sub
    subscriptions := fun _ => none }

def subscribe (threadId runId : Nat) : ConversationStore :=
  { s.stop threadId with
    opened := (s.stop threadId).opened ++ [{ threadId, runId }]
    subscriptions := Function.update s.subscriptions threadId (some (s.stop threadId).opened.length) }

def idle : ConversationStore := { s with submitting := false, currentRunId := none }

/-! The actions, up to where they wait. -/

def selectThread (action id : Nat) : ConversationStore :=
  let s' : ConversationStore :=
    { s.stopAll.idle with selectionGeneration := s.selectionGeneration + 1, selectedThreadId := some id }
  s'.await action (.loadThread id (s.selectionGeneration + 1))

def clearSelection : ConversationStore :=
  { s.stopAll.idle with
    selectionGeneration := s.selectionGeneration + 1
    submissionGeneration := s.submissionGeneration + 1
    selectedThreadId := none }

/-- A thread that has been created is listed and selected. -/
def addThread (id : Nat) : ConversationStore :=
  { s.putMessages id [] with threads := id :: s.threads, selectedThreadId := some id }

/-- `submit` once it has a thread. -/
def sendMessage (action generation threadId : Nat) : ConversationStore :=
  if generation ∈ s.cancelledSubmissions then
    { s.idle with cancelledSubmissions := s.cancelledSubmissions.filter (· ≠ generation) }
  else
    let messages := s.messages threadId ++ [{ id := .optimistic generation, fromUser := true }]
    let s' : ConversationStore := { s.putMessages threadId messages with submitting := true }
    s'.await action (.submitMessage generation threadId)

def submit (action : Nat) : ConversationStore :=
  if s.submitting then s
  else
    let s' : ConversationStore := { s with submissionGeneration := s.submissionGeneration + 1 }
    match s.selectedThreadId with
    | none => ({ s' with submitting := true } : ConversationStore).await action (.createForSubmit s'.submissionGeneration)
    | some threadId => s'.sendMessage action s'.submissionGeneration threadId

def cancelRun (action : Nat) : ConversationStore :=
  if s.submitting then
    match s.currentRunId with
    | some runId => s.idle.await action (.cancelRun runId s.selectedThreadId)
    | none =>
      let s' : ConversationStore :=
        { s.idle with cancelledSubmissions := s.submissionGeneration :: s.cancelledSubmissions }
      s.selectedThreadId.elim s' s'.stop
  else s

def user (action : UserAction) : ConversationStore :=
  let s' := match action with
    | .loadThreads => s.await s.actions .listThreads
    | .createThread => s.await s.actions .createThread
    | .selectThread id => s.selectThread s.actions id
    | .clearSelection => s.clearSelection
    | .archiveThread id => s.await s.actions (.archiveThread id (s.selectedThreadId = some id))
    | .submit => s.submit s.actions
    | .cancelRun => s.cancelRun s.actions
  { s' with actions := s.actions + 1 }

/-! What the actions do with an answer. -/

def threadsListed (action : Nat) (ids : List Nat) : ConversationStore :=
  let s' : ConversationStore := { s with threads := ids }
  if s.selectedThreadId.any (· ∈ ids) then s'
  else match ids with
    | id :: _ => ({ s' with selectedThreadId := none } : ConversationStore).selectThread action id
    | [] => { s'.clearSelection with messages := fun _ => [] }

/-- The answer to a thread's load still counts. -/
def expects (id generation : Nat) : Prop := generation = s.selectionGeneration ∧ s.selectedThreadId = some id

instance (id generation : Nat) : Decidable (s.expects id generation) := inferInstanceAs (Decidable (_ ∧ _))

/-- The run of the latest message that has one, unless its end is among the events. -/
def runningRun (messages : List Message) (ended : List Nat) : Option Nat :=
  ((messages.reverse.find? (·.runId.isSome)).bind Message.runId).filter (· ∉ ended)

def threadLoaded (id generation : Nat) (messages : List Message) (ended : List Nat) : ConversationStore :=
  if s.expects id generation then
    match runningRun messages ended with
    | some runId => { (s.subscribe id runId).putMessages id messages with submitting := true, currentRunId := some runId }
    | none => (s.putMessages id messages).idle
  else s

def threadLoadFailed (id generation : Nat) (why : Failure) : ConversationStore :=
  if s.expects id generation ∧ why = .missing then
    { ((s.stop id).putMessages id []).idle with
      threads := s.threads.filter (· ≠ id)
      selectedThreadId := none }
  else s

def threadArchived (action id : Nat) (wasSelected : Bool) : ConversationStore :=
  let threads := s.threads.filter (· ≠ id)
  if wasSelected then
    let s' : ConversationStore := { (s.stop id).idle with threads, selectedThreadId := threads.head? }
    threads.head?.elim s' (s'.selectThread action)
  else { s with threads }

def stored (generation runId : Nat) (message : Message) : Message :=
  if message.id = .optimistic generation then
    { message with id := .server (.stored generation), runId := some runId }
  else message

def messageSubmitted (action generation threadId runId : Nat) : ConversationStore :=
  if generation ∈ s.cancelledSubmissions then
    let s' : ConversationStore := { s with cancelledSubmissions := s.cancelledSubmissions.filter (· ≠ generation) }
    s'.await action (.cancelAccepted generation runId)
  else if generation ≠ s.submissionGeneration ∨ s.selectedThreadId ≠ some threadId then s
  else
    let s' : ConversationStore :=
      { s.putMessages threadId ((s.messages threadId).map (stored generation runId)) with currentRunId := some runId }
    s'.subscribe threadId runId

def submissionFailed (generation : Nat) : ConversationStore :=
  { s with
    cancelledSubmissions := s.cancelledSubmissions.filter (· ≠ generation)
    submitting := if generation = s.submissionGeneration then false else s.submitting }

def acceptedCancelled (generation : Nat) : ConversationStore :=
  if generation = s.submissionGeneration then s.idle else s

def runCancelled (action : Nat) (threadId : Option Nat) : ConversationStore :=
  threadId.elim s fun id => (s.stop id).await action (.refreshCancelled id)

/-- A conflict means that the run has ended. -/
def cancelFailed (action : Nat) (threadId : Option Nat) (why : Failure) : ConversationStore :=
  if why = .conflict then threadId.elim s fun id => s.await action (.refreshCancelled id) else s

/-- The refresh after an event still counts. -/
def refreshes (threadId : Nat) (runId : Option Nat) : Prop :=
  s.selectedThreadId = some threadId ∧ (s.currentRunId = none ∨ runId = s.currentRunId)

instance (threadId : Nat) (runId : Option Nat) : Decidable (s.refreshes threadId runId) :=
  inferInstanceAs (Decidable (_ ∧ _))

def answer (p : Pending) : Answer → Option ConversationStore
  | .threads ids => match p.waiting with
    | .listThreads => some (s.threadsListed p.action ids)
    | _ => none
  | .thread id => match p.waiting with
    | .createThread => some (s.addThread id)
    | .createForSubmit generation => some ((s.addThread id).sendMessage p.action generation id)
    | _ => none
  | .history messages ended => match p.waiting with
    | .loadThread id generation => some (s.threadLoaded id generation messages ended)
    | .refreshCancelled id => some (if s.selectedThreadId = some id then s.putMessages id messages else s)
    | .refreshEvent id runId terminal =>
      some (if s.refreshes id runId then
          { s.putMessages id messages with submitting := !terminal && s.submitting }
        else s)
    | _ => none
  | .run runId => match p.waiting with
    | .submitMessage generation threadId => some (s.messageSubmitted p.action generation threadId runId)
    | _ => none
  | .done => match p.waiting with
    | .archiveThread id wasSelected => some (s.threadArchived p.action id wasSelected)
    | .cancelAccepted generation _ => some (s.acceptedCancelled generation)
    | .cancelRun _ threadId => some (s.runCancelled p.action threadId)
    | _ => none
  | .failed why => match p.waiting with
    | .loadThread id generation => some (s.threadLoadFailed id generation why)
    | .createForSubmit _ => some { s with submitting := false }
    | .submitMessage generation _ => some (s.submissionFailed generation)
    | .cancelAccepted generation _ => some (s.acceptedCancelled generation)
    | .cancelRun _ threadId => some (s.cancelFailed p.action threadId why)
    | _ => some s

/-! The events of a run. -/

/-- The draft of an answer, which each of its events writes again. -/
def putDraft (id : ServerId) (runId : Option Nat) (messages : List Message) : List Message :=
  if messages.any (·.id = .server id) then
    messages.map fun message => if message.id = .server id then { id := .server id, runId } else message
  else messages ++ [{ id := .server id, runId }]

def isAnswer (id : ServerId) (runId : Option Nat) (message : Message) : Bool :=
  message.id = .server id || (message.runId = runId && !message.fromUser)

def putAnswer (id : ServerId) (runId : Option Nat) (messages : List Message) : List Message :=
  match messages.findIdx? (isAnswer id runId) with
  | some i => messages.set i { id := .server id, runId }
  | none => messages ++ [{ id := .server id, runId }]

/-- The answer in an event is shown at once, and the persisted messages are asked for. -/
def showAnswer (event : RunEvent) : ConversationStore :=
  (event.streamed.elim s fun id =>
    s.putMessages event.threadId (putAnswer id event.runId (s.messages event.threadId)))

def applyRunEvent (event : RunEvent) : ConversationStore :=
  if s.selectedThreadId = some event.threadId ∧ (s.currentRunId = none ∨ event.runId = s.currentRunId) then
    match event.kind with
    | .progress => s
    | .draft id => s.putMessages event.threadId (putDraft id event.runId (s.messages event.threadId))
    | .answer false => (s.showAnswer event).await 0 (.refreshEvent event.threadId event.runId false)
    | .answer true =>
      (((s.showAnswer event).await 0 (.refreshEvent event.threadId event.runId true)).stop event.threadId).idle
  else s

def shows (sub : Subscription) : Prop := s.selectedThreadId = some sub.threadId ∧ s.currentRunId = some sub.runId

instance (sub : Subscription) : Decidable (s.shows sub) := inferInstanceAs (Decidable (_ ∧ _))

/-- `onState("closed")`. -/
def streamClosed (sub : Subscription) : ConversationStore := if s.submitting ∧ s.shows sub then s.idle else s

def step (s : ConversationStore) : StoreStep → Option ConversationStore
  | .user action => some (s.user action)
  | .complete i answer => s.pending[i]?.bind fun p =>
    ({ s with pending := s.pending.eraseIdx i } : ConversationStore).answer p answer
  | .event k event => (s.opened[k]?.filter (!·.closed)).map fun sub =>
    if s.shows sub then s.applyRunEvent event else s
  | .close k => (s.opened[k]?.filter (!·.closed)).map fun sub =>
    ({ s with opened := s.opened.set k { sub with closed := true } } : ConversationStore).streamClosed sub

/-! What a submission does, by what is selected. -/

variable {s}

theorem submit_none {action : Nat} (hidle : s.submitting ≠ true) (h : s.selectedThreadId = none) :
    s.submit action =
      ({ s with submissionGeneration := s.submissionGeneration + 1, submitting := true } : ConversationStore).await
        action (.createForSubmit (s.submissionGeneration + 1)) := by
  rw [submit, if_neg hidle]
  dsimp only
  split
  · rfl
  · next hsome =>
    rw [h] at hsome
    cases hsome

theorem submit_some {action threadId : Nat} (hidle : s.submitting ≠ true) (h : s.selectedThreadId = some threadId) :
    s.submit action = ({ s with submissionGeneration := s.submissionGeneration + 1 } : ConversationStore).sendMessage
      action (s.submissionGeneration + 1) threadId := by
  rw [submit, if_neg hidle]
  dsimp only
  split
  · next hnone =>
    rw [h] at hnone
    cases hnone
  · next hsome =>
    rw [h] at hsome
    cases hsome
    rfl

/-! The requests that an answer leads to. -/

/-- An answer leads to one request at most, which goes on with the submission that has been answered. -/
structure Requests (s : ConversationStore) (p : Pending) (s' : ConversationStore) : Prop where
  actions : s'.actions = s.actions
  pending : s'.pending = s.pending ∨ ∃ waiting, s'.pending = s.pending ++ [⟨p.action, waiting⟩] ∧
    ∀ generation, waiting.generation? = some generation → p.waiting.generation? = some generation
  generation : p.waiting ≠ .listThreads → s'.submissionGeneration = s.submissionGeneration
  later : s.submissionGeneration ≤ s'.submissionGeneration

variable {p : Pending} {a : Answer} {s' : ConversationStore}

theorem Requests.none (h : s'.actions = s.actions ∧ s'.pending = s.pending ∧
    s'.submissionGeneration = s.submissionGeneration) : s.Requests p s' :=
  ⟨h.1, .inl h.2.1, fun _ => h.2.2, Nat.le_of_eq h.2.2.symm⟩

theorem Requests.one (waiting : Waiting) (h : s'.actions = s.actions ∧ s'.pending = s.pending ++ [⟨p.action, waiting⟩] ∧
    s'.submissionGeneration = s.submissionGeneration)
    (hw : ∀ generation, waiting.generation? = some generation → p.waiting.generation? = some generation) :
    s.Requests p s' :=
  ⟨h.1, .inr ⟨waiting, h.2.1, hw⟩, fun _ => h.2.2, Nat.le_of_eq h.2.2.symm⟩

theorem sendMessage_requests {action generation : Nat} (threadId : Nat) :
    s.Requests ⟨action, .createForSubmit generation⟩ (s.sendMessage action generation threadId) := by
  rw [sendMessage]
  split
  · exact .none ⟨rfl, rfl, rfl⟩
  · exact .one (.submitMessage generation threadId) ⟨rfl, rfl, rfl⟩ fun _ h => h

theorem threadsListed_requests (action : Nat) (ids : List Nat) :
    s.Requests ⟨action, .listThreads⟩ (s.threadsListed action ids) := by
  simp only [threadsListed]
  split
  · exact .none ⟨rfl, rfl, rfl⟩
  · cases ids with
    | nil => exact ⟨rfl, .inl rfl, fun h => absurd rfl h, Nat.le_succ _⟩
    | cons id ids => exact .one (.loadThread id _) ⟨rfl, rfl, rfl⟩ nofun

theorem threadArchived_requests (action id : Nat) (wasSelected : Bool) :
    s.Requests ⟨action, .archiveThread id wasSelected⟩ (s.threadArchived action id wasSelected) := by
  simp only [threadArchived]
  split
  · generalize s.threads.filter (· ≠ id) = threads
    cases threads with
    | nil => exact .none ⟨rfl, rfl, rfl⟩
    | cons next threads => exact .one (.loadThread next _) ⟨rfl, rfl, rfl⟩ nofun
  · exact .none ⟨rfl, rfl, rfl⟩

theorem messageSubmitted_requests (action generation threadId runId : Nat) :
    s.Requests ⟨action, .submitMessage generation threadId⟩ (s.messageSubmitted action generation threadId runId) := by
  rw [messageSubmitted]
  split
  · exact .one (.cancelAccepted generation runId) ⟨rfl, rfl, rfl⟩ fun _ h => h
  · split
    · exact .none ⟨rfl, rfl, rfl⟩
    · exact .none ⟨rfl, rfl, rfl⟩

theorem threadLoaded_requests (id generation : Nat) (messages : List Message) (ended : List Nat) :
    s.Requests p (s.threadLoaded id generation messages ended) := by
  rw [threadLoaded]
  split
  · split
    · exact .none ⟨rfl, rfl, rfl⟩
    · exact .none ⟨rfl, rfl, rfl⟩
  · exact .none ⟨rfl, rfl, rfl⟩

theorem acceptedCancelled_requests (generation : Nat) : s.Requests p (s.acceptedCancelled generation) := by
  rw [acceptedCancelled]
  split
  · exact .none ⟨rfl, rfl, rfl⟩
  · exact .none ⟨rfl, rfl, rfl⟩

theorem cancelled_requests {action runId : Nat} (threadId : Option Nat) :
    s.Requests ⟨action, .cancelRun runId threadId⟩ (s.runCancelled action threadId) ∧
      ∀ why, s.Requests ⟨action, .cancelRun runId threadId⟩ (s.cancelFailed action threadId why) := by
  cases threadId with
  | none =>
    refine ⟨.none ⟨rfl, rfl, rfl⟩, fun why => ?_⟩
    cases why <;> exact .none ⟨rfl, rfl, rfl⟩
  | some id =>
    refine ⟨.one (.refreshCancelled id) ⟨rfl, rfl, rfl⟩ nofun, fun why => ?_⟩
    cases why with
    | conflict => exact .one (.refreshCancelled id) ⟨rfl, rfl, rfl⟩ nofun
    | _ => exact .none ⟨rfl, rfl, rfl⟩

theorem answer_requests (h : s.answer p a = some s') : s.Requests p s' := by
  obtain ⟨action, waiting⟩ := p
  cases a with
  | threads ids =>
    cases waiting with
    | listThreads =>
      cases h
      exact threadsListed_requests action ids
    | _ => cases h
  | thread id =>
    cases waiting with
    | createThread =>
      cases h
      exact .none ⟨rfl, rfl, rfl⟩
    | createForSubmit generation =>
      cases h
      have hsend : (s.addThread id).Requests ⟨action, .createForSubmit generation⟩
          ((s.addThread id).sendMessage action generation id) := sendMessage_requests id
      exact ⟨hsend.actions, hsend.pending, hsend.generation, hsend.later⟩
    | _ => cases h
  | history messages ended =>
    cases waiting with
    | loadThread id generation =>
      cases h
      exact threadLoaded_requests id generation messages ended
    | refreshCancelled id =>
      cases h
      split
      · exact .none ⟨rfl, rfl, rfl⟩
      · exact .none ⟨rfl, rfl, rfl⟩
    | refreshEvent id runId terminal =>
      cases h
      split
      · exact .none ⟨rfl, rfl, rfl⟩
      · exact .none ⟨rfl, rfl, rfl⟩
    | _ => cases h
  | run runId =>
    cases waiting with
    | submitMessage generation threadId =>
      cases h
      exact messageSubmitted_requests action generation threadId runId
    | _ => cases h
  | done =>
    cases waiting with
    | archiveThread id wasSelected =>
      cases h
      exact threadArchived_requests action id wasSelected
    | cancelAccepted generation runId =>
      cases h
      exact acceptedCancelled_requests generation
    | cancelRun runId threadId =>
      cases h
      exact (cancelled_requests threadId).1
    | _ => cases h
  | failed why =>
    cases waiting with
    | loadThread id generation =>
      cases h
      rw [threadLoadFailed]
      split
      · exact .none ⟨rfl, rfl, rfl⟩
      · exact .none ⟨rfl, rfl, rfl⟩
    | cancelAccepted generation runId =>
      cases h
      exact acceptedCancelled_requests generation
    | cancelRun runId threadId =>
      cases h
      exact (cancelled_requests threadId).2 why
    | _ =>
      cases h
      exact .none ⟨rfl, rfl, rfl⟩

end ConversationStore
end SelericSwarm.Client
