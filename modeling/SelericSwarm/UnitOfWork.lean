import SelericSwarm.Conversations
import SelericSwarm.RunOutcomes
import SelericSwarm.Undo

/-! `unit_of_work` of the in-memory repositories: six snapshots on entry, and on
an exception six restorations, none of which takes a repository's lock. -/
namespace SelericSwarm
open Keyed

/-- In the order of `mutable`. -/
inductive Repository where
  | threads | messages | runs | artifacts | attachments | memories
  deriving DecidableEq, Repr

/-! The methods that write, each with its arguments. -/

inductive ThreadCall where
  | create (thread : Thread)
  | update (thread : Thread)

inductive MessageCall where
  | create (message : Message)
  | update (message : Message)

inductive RunCall where
  | create (run : Run)
  | update (run : Run)
  | compareAndSetStatus (runId : String) (expected : List RunStatus) (newStatus : RunStatus)
      (moment : Moment)
  | addAttempt (attempt : RunAttempt)
  | updateAttempt (attempt : RunAttempt)
  | claim (runId workerId : String) (lease : Duration) (moment : Moment)
  | heartbeat (attemptId workerId : String) (lease : Duration) (expectedVersion : Option Nat)
      (moment : Moment)
  | compareAndSetAttempt (attemptId : String) (expectedStatus newStatus : RunAttemptStatus)
      (workerId : Option String) (expectedVersion : Option Nat) (leaseExpiredBefore : Option Moment)
      (moment : Moment) (errorCode errorMessage : Option String)
  | finalizeAttempt (attemptId workerId : String) (expectedVersion : Nat) (status : TerminalStatus)
      (event : ActivityEvent) (moment : Moment) (errorCode errorMessage : Option String)
  | transitionFailedAttempt (attemptId : String) (expectedVersion : Nat) (retryDelay : Duration)
      (now : Moment) (errorCode errorMessage : String) (workerId : Option String)
      (leaseExpiredBefore : Option Moment)
  | cancel (runId : String) (moment : Moment) (event : Option ActivityEvent)
  | appendEvent (event : ActivityEvent)
  | addOutbox (runId : String)
  | markOutboxPublished (runId : String)

inductive ArtifactCall where
  | put (artifact : Artifact)

inductive AttachmentCall where
  | create (attachment : Attachment)
  | update (attachment : Attachment)
  | associateMany (attachmentIds : List String) (messageId threadId workspaceId ownerUserId : String)
  | delete (attachmentId : String)

inductive MemoryCall where
  | create (memory : MemoryItem)
  | update (memory : MemoryItem)
  | recordUsage (runId : String) (memories : List MemoryItem) (now : Moment)
  | setPreference (preference : MemoryPreference)

namespace RunRepository

def tenant (a b : Run) : Bool :=
  a.workspaceId = b.workspaceId && a.requestedByUserId = b.requestedByUserId

def update (s : RunRepository) (run : Run) : Except StoreError Run × RunRepository :=
  let (updated, items) :=
    updateIn tenant (fun _ => .permission "run tenant ownership is immutable") s.items run
  (updated, { s with items := items })

def updateAttempt (s : RunRepository) (attempt : RunAttempt) :
    Except StoreError RunAttempt × RunRepository :=
  let (updated, attempts) := updateIn (fun _ _ => true) (fun a => .missing a.id) s.attempts attempt
  (updated, { s with attempts := attempts })

end RunRepository

/-! A method is acknowledged when it raises nothing and does not report a refusal. -/

def ThreadCall.perform (s : ThreadRepository) : ThreadCall → Bool × ThreadRepository
  | .create thread => let r := s.create thread; (r.1.isOk, r.2)
  | .update thread => let r := s.update thread; (r.1.isOk, r.2)

def MessageCall.perform (s : MessageRepository) : MessageCall → Bool × MessageRepository
  | .create message => let r := s.create message; (r.1.isOk, r.2)
  | .update message => let r := s.update message; (r.1.isOk, r.2)

def RunCall.perform (s : RunRepository) : RunCall → Bool × RunRepository
  | .create run =>
    let r := createIn RunRepository.tenant "run id belongs to another tenant" s.items run
    (r.1.isOk, { s with items := r.2 })
  | .update run => let r := s.update run; (r.1.isOk, r.2)
  | .compareAndSetStatus runId expected newStatus moment =>
    let r := s.compareAndSetStatus runId expected newStatus moment
    (r.1.isSome, r.2)
  | .addAttempt attempt => (true, s.addAttempt attempt)
  | .updateAttempt attempt => let r := s.updateAttempt attempt; (r.1.isOk, r.2)
  | .claim runId workerId lease moment => let r := s.claim runId workerId lease moment; (r.1.isSome, r.2)
  | .heartbeat attemptId workerId lease version moment => s.heartbeat attemptId workerId lease version moment
  | .compareAndSetAttempt attemptId expected new workerId version before moment errorCode errorMessage =>
    let r := s.compareAndSetAttempt attemptId expected new workerId version before moment errorCode errorMessage
    (r.1.isSome, r.2)
  | .finalizeAttempt attemptId workerId version status event moment errorCode errorMessage =>
    let r := s.finalizeAttempt attemptId workerId version status event moment errorCode errorMessage
    (r.1.isSome, r.2)
  | .transitionFailedAttempt attemptId version retryDelay now errorCode errorMessage workerId before =>
    let r := s.transitionFailedAttempt attemptId version retryDelay now errorCode errorMessage workerId before
    (r.1 ≠ .stale, r.2)
  | .cancel runId moment event => let r := s.cancel runId moment event; (r.1.isSome, r.2)
  | .appendEvent event => let r := s.appendEvent event; (r.1.isOk, r.2)
  | .addOutbox runId => (true, s.addOutbox runId)
  | .markOutboxPublished runId => (true, { s with outbox := s.publishOutbox runId })

def ArtifactCall.perform (s : ArtifactRepository) : ArtifactCall → Bool × ArtifactRepository
  | .put artifact => let r := ArtifactRepository.put s artifact; (r.1.isOk, r.2)

def AttachmentCall.perform (s : AttachmentRepository) : AttachmentCall → Bool × AttachmentRepository
  | .create attachment => let r := s.create attachment; (r.1.isOk, r.2)
  | .update attachment => let r := s.update attachment; (r.1.isOk, r.2)
  | .associateMany attachmentIds messageId threadId workspaceId ownerUserId =>
    s.associateMany attachmentIds messageId threadId workspaceId ownerUserId
  | .delete attachmentId => s.delete attachmentId

def MemoryCall.perform (s : MemoryRepository) : MemoryCall → Bool × MemoryRepository
  | .create memory => (true, s.create memory)
  | .update memory => let r := s.update memory; (r.1.isOk, r.2)
  | .recordUsage runId memories now => (true, s.recordUsage runId memories now)
  | .setPreference preference => (true, s.setPreference preference)

namespace Repository

abbrev Store : Repository → Type
  | threads => ThreadRepository
  | messages => MessageRepository
  | runs => RunRepository
  | artifacts => ArtifactRepository
  | attachments => AttachmentRepository
  | memories => MemoryRepository

abbrev Call : Repository → Type
  | threads => ThreadCall
  | messages => MessageCall
  | runs => RunCall
  | artifacts => ArtifactCall
  | attachments => AttachmentCall
  | memories => MemoryCall

def perform : Undo.Methods Store Call
  | threads, call, s => ThreadCall.perform s call
  | messages, call, s => MessageCall.perform s call
  | runs, call, s => RunCall.perform s call
  | artifacts, call, s => ArtifactCall.perform s call
  | attachments, call, s => AttachmentCall.perform s call
  | memories, call, s => MemoryCall.perform s call

def mutable : List Repository := [threads, messages, runs, artifacts, attachments, memories]

end Repository

/-! A refused call leaves its repository as it is. -/

section Shared
variable {α : Type} {key : α → String} {mine : α → α → Bool} {items : Table key} {a : α}

theorem createIn_refused {refusal : String} (h : (createIn mine refusal items a).1.isOk = false) :
    (createIn mine refusal items a).2 = items := by
  unfold createIn at h ⊢
  split at h
  · cases h
  · split at h
    · cases h
    next hmine => rw [if_neg hmine]

theorem updateIn_refused {refusal : α → StoreError}
    (h : (updateIn mine refusal items a).1.isOk = false) : (updateIn mine refusal items a).2 = items := by
  unfold updateIn at h ⊢
  split at h
  · rfl
  · split at h
    · cases h
    next hmine => rw [if_neg hmine]

end Shared

theorem ThreadCall.refused (call : ThreadCall) (s : ThreadRepository)
    (h : (perform s call).1 = false) : (perform s call).2 = s := by
  cases call with
  | create => exact createIn_refused h
  | update => exact updateIn_refused h

theorem MessageCall.refused (call : MessageCall) (s : MessageRepository)
    (h : (perform s call).1 = false) : (perform s call).2 = s := by
  cases call with
  | create => exact createIn_refused h
  | update => exact updateIn_refused h

theorem RunCall.refused (call : RunCall) (s : RunRepository) (h : (perform s call).1 = false) :
    (perform s call).2 = s := by
  cases call with
  | create run => simp only [perform, createIn_refused h]
  | update run =>
    simp only [perform, RunRepository.update] at h ⊢
    rw [updateIn_refused h]
  | updateAttempt attempt =>
    simp only [perform, RunRepository.updateAttempt] at h ⊢
    rw [updateIn_refused h]
  | compareAndSetStatus runId expected newStatus moment =>
    obtain he | ⟨run, -, -, he⟩ := s.compareAndSetStatus_cases runId expected newStatus moment
    · simp only [perform, he]
    · simp [perform, he] at h
  | addAttempt | addOutbox | markOutboxPublished => cases h
  | claim runId workerId lease moment =>
    obtain he | ⟨a, -, -, -, he⟩ := s.claim_cases runId workerId lease moment
    · simp only [perform, he]
    · simp [perform, he] at h
  | heartbeat attemptId workerId lease version moment =>
    obtain he | ⟨a, -, -, -, -, he⟩ := s.heartbeat_cases attemptId workerId lease version moment
    · simp only [perform, he]
    · simp [perform, he] at h
  | compareAndSetAttempt attemptId expected new workerId version before moment errorCode errorMessage =>
    obtain he | ⟨a, b, -, -, -, -, he⟩ := s.compareAndSetAttempt_cases attemptId expected new workerId
      version before moment errorCode errorMessage
    · simp only [perform, he]
    · simp [perform, he] at h
  | finalizeAttempt attemptId workerId version status event moment errorCode errorMessage =>
    obtain he | ⟨a, run, final, events, -, -, -, -, -, -, -, -, -, he⟩ := s.finalizeAttempt_cases attemptId
      workerId version status event moment errorCode errorMessage
    · simp only [perform, he]
    · simp [perform, he] at h
  | transitionFailedAttempt attemptId version retryDelay now errorCode errorMessage workerId before =>
    obtain he | ⟨a, run, -, -, -, -, -, -, he⟩ := s.transitionFailedAttempt_cases attemptId version
      retryDelay now errorCode errorMessage workerId before
    · simp only [perform, he]
    · simp only [perform, he, decide_eq_false_iff_not, ne_eq, not_not] at h
      exact absurd h (s.afterFailure_ne_stale a run retryDelay now errorCode errorMessage)
  | cancel runId moment event =>
    obtain ⟨he, -⟩ | ⟨run, -, -, he⟩ := s.cancel_cases runId moment event
    · simp only [perform, he]
    · simp [perform, he] at h
  | appendEvent event =>
    simp only [perform, RunRepository.appendEvent] at h ⊢
    split at h
    · rfl
    · split at h
      next hstale => rw [if_pos hstale]
      · cases h

theorem ArtifactCall.refused (call : ArtifactCall) (s : ArtifactRepository)
    (h : (perform s call).1 = false) : (perform s call).2 = s := by
  obtain ⟨artifact⟩ := call
  simp only [perform, ArtifactRepository.put] at h ⊢
  cases hp : artifact.requireProvenance with
  | error => rfl
  | ok artifact =>
    simp only [hp] at h ⊢
    split at h
    · split at h
      · cases h
      next hmine => rw [if_neg hmine]
    · cases h

theorem AttachmentCall.refused (call : AttachmentCall) (s : AttachmentRepository)
    (h : (perform s call).1 = false) : (perform s call).2 = s := by
  cases call with
  | create attachment =>
    simp only [perform, AttachmentRepository.create] at h ⊢
    split at h
    next hverified =>
      rw [if_pos hverified]
      exact createIn_refused h
    next hverified => rw [if_neg hverified]
  | update attachment =>
    simp only [perform, AttachmentRepository.update] at h ⊢
    split at h
    next hverified =>
      rw [if_pos hverified]
      exact updateIn_refused h
    next hverified => rw [if_neg hverified]
  | associateMany attachmentIds messageId threadId workspaceId ownerUserId =>
    simp only [perform, AttachmentRepository.associateMany] at h ⊢
    split at h
    · cases h
    next hfree => rw [if_neg hfree]
  | delete attachmentId =>
    simp only [perform, AttachmentRepository.delete] at h ⊢
    split at h
    · rfl
    · cases h

theorem MemoryCall.refused (call : MemoryCall) (s : MemoryRepository) (h : (perform s call).1 = false) :
    (perform s call).2 = s := by
  cases call with
  | create | recordUsage | setPreference => cases h
  | update memory =>
    simp only [perform, MemoryRepository.update] at h ⊢
    split at h
    · rfl
    · split at h
      · cases h
      next hmine => rw [if_neg hmine]

namespace Repository

theorem refused (i : Repository) (call : Call i) (s : Store i) (h : (perform i call s).1 = false) :
    (perform i call s).2 = s := by
  cases i with
  | threads => exact ThreadCall.refused call s h
  | messages => exact MessageCall.refused call s h
  | runs => exact RunCall.refused call s h
  | artifacts => exact ArtifactCall.refused call s h
  | attachments => exact AttachmentCall.refused call s h
  | memories => exact MemoryCall.refused call s h

/-- A unit of work that others do not write past is undone without a trace: what
they have been told of is all there is. -/
theorem unitOfWork_undone {start : ∀ i, Store i} {steps : List (Undo.Step Call)}
    {s : Undo.State Store Call}
    (hok : Machine.Along (Undo.step perform mutable) (Undo.Spares perform)
      { phase := .saving mutable, stores := start } steps)
    (hs : Machine.exec (Undo.step perform mutable) { phase := .saving mutable, stores := start } steps = some s)
    (hended : s.phase = .restoring []) : Undo.replay perform start s.acknowledged = some s.stores :=
  Undo.undone (by decide) (fun i => by cases i <;> decide) refused hok hs hended

/-! An event appended by another thread during the block is lost with it. -/

def empty : ∀ i, Store i
  | threads => Table.empty
  | messages => Table.empty
  | runs => {}
  | artifacts => Table.empty
  | attachments => Table.empty
  | memories => {}

def sampleEvent : ActivityEvent where
  id := "e"
  threadId := "t"
  workspaceId := "w"
  runId := some "r"
  eventType := "run.started"

def sampleThread : Thread where
  id := "t"
  workspaceId := "w"
  ownerUserId := "u"
  updatedAt := 0

def saves : List (Undo.Step Call) := List.replicate 6 .save

def undoing : List (Undo.Step Call) := .raise :: List.replicate 6 .restore

def appendedMeanwhile : List (Undo.Step Call) :=
  saves ++ [.write threads (.create sampleThread), .outside runs (.appendEvent sampleEvent)] ++ undoing

theorem appended_event_lost : ∃ s,
    Machine.exec (Undo.step perform mutable) { phase := .saving mutable, stores := empty }
      appendedMeanwhile = some s ∧ s.phase = .restoring [] ∧
    (s.stores runs).listEvents "r" 0 = [] ∧ Undo.replay perform empty s.acknowledged ≠ some s.stores := by
  refine ⟨_, rfl, rfl, rfl, fun hreplay => ?_⟩
  have hevents := congrArg (fun stores => stores.map fun stores => ((stores runs).listEvents "r" 0).length) hreplay
  revert hevents
  decide

def appendedAround : List (Undo.Step Call) :=
  [.outside runs (.appendEvent sampleEvent)] ++ saves ++
    [.write threads (.create sampleThread), .outside runs (.heartbeat "a" "worker" 60 none 0)] ++ undoing ++
    [.outside threads (.create sampleThread)]

theorem appended_event_kept : ∃ s,
    Machine.exec (Undo.step perform mutable) { phase := .saving mutable, stores := empty }
      appendedAround = some s ∧ Undo.replay perform empty s.acknowledged = some s.stores :=
  ⟨_, rfl, unitOfWork_undone (Undo.along_of_apart appendedAround _ (by decide)) rfl rfl⟩

end Repository

end SelericSwarm
