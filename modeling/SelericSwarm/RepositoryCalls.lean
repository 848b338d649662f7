import SelericSwarm.PostgresRuns
import SelericSwarm.RunProgress

/-! The calls both run repositories understand and what they answer, the two
given the same calls side by side, and what the in-memory one keeps throughout. -/
namespace SelericSwarm
open Keyed RunRepository

inductive RepositoryCall where
  | submit (new : NewRun)
  | claim (runId workerId : String) (lease : Duration) (moment : Moment)
  | heartbeat (attemptId workerId : String) (lease : Duration) (expectedVersion : Option Nat)
      (moment : Moment)
  | start (runId : String) (moment : Moment)
  | finalizeAttempt (attemptId workerId : String) (expectedVersion : Nat) (status : TerminalStatus)
      (event : ActivityEvent) (moment : Moment) (errorCode errorMessage : Option String)
  | transitionFailedAttempt (attemptId : String) (expectedVersion : Nat) (retryDelay : Duration)
      (now : Moment) (errorCode errorMessage : String) (workerId : Option String)
      (leaseExpiredBefore : Option Moment)
  | cancel (runId : String) (moment : Moment) (event : Option ActivityEvent)
  | listRecoverable (moment : Moment) (limit : Nat)
  | appendEvent (event : ActivityEvent)

/-- What a call returns, or that it raises. -/
inductive RepositoryReply where
  | submitted
  | claimed (attempt : Option RunAttempt)
  | renewed (ok : Bool)
  | started (run : Option Run)
  | finalized (committed : Option (Run × RunAttempt × ActivityEvent))
  | transitioned (transition : FailedTransition)
  | cancelled (event : Option ActivityEvent)
  | listed (attempts : List RunAttempt)
  | appended (event : ActivityEvent)
  | raised

def RepositoryReply.ofExcept {ε α : Type} (reply : α → RepositoryReply) : Except ε α → RepositoryReply
  | .ok a => reply a
  | .error _ => .raised

def RepositoryReply.Agrees : RepositoryReply → RepositoryReply → Prop
  | .listed attempts, .listed attempts' => attempts.Perm attempts'
  | .appended event, .appended event' =>
    event.sequence = event'.sequence ∧ event.threadSequence = event'.threadSequence
  | reply, reply' => reply = reply'

/-- Both repositories as one call finds them. -/
structure Stores where
  memory : RunRepository := {}
  postgres : PostgresRunRepository := {}

def RunRepository.answer (s : RunRepository) : RepositoryCall → RepositoryReply × RunRepository
  | .submit new => (.submitted, s.submit new)
  | .claim runId workerId lease moment =>
    let r := s.claim runId workerId lease moment
    (.claimed r.1, r.2)
  | .heartbeat attemptId workerId lease version moment =>
    let r := s.heartbeat attemptId workerId lease version moment
    (.renewed r.1, r.2)
  | .start runId moment =>
    let r := s.compareAndSetStatus runId [.queued] .running moment
    (.started r.1, r.2)
  | .finalizeAttempt attemptId workerId version status event moment errorCode errorMessage =>
    let r := s.finalizeAttempt attemptId workerId version status event moment errorCode errorMessage
    (.finalized r.1, r.2)
  | .transitionFailedAttempt attemptId version retryDelay now errorCode errorMessage workerId before =>
    let r := s.transitionFailedAttempt attemptId version retryDelay now errorCode errorMessage workerId before
    (.transitioned r.1, r.2)
  | .cancel runId moment event =>
    let r := s.cancel runId moment event
    -- `None` for a finished run as well as for an event that was not asked for
    (.cancelled r.1.join, r.2)
  | .listRecoverable moment limit => (.listed (s.listRecoverable moment limit), s)
  | .appendEvent event =>
    let r := s.appendEvent event
    (.ofExcept .appended r.1, r.2)

def PostgresRunRepository.answer (db : PostgresRunRepository) :
    RepositoryCall → RepositoryReply × PostgresRunRepository
  | .submit new =>
    let r := db.submit new
    (.ofExcept (fun _ => .submitted) r.1, r.2)
  | .claim runId workerId lease moment =>
    let r := db.claim runId workerId lease moment
    (.claimed r.1, r.2)
  | .heartbeat attemptId workerId lease version moment =>
    let r := db.heartbeat attemptId workerId lease version moment
    (.renewed r.1, r.2)
  | .start runId moment =>
    let r := db.compareAndSetStatus runId [.queued] .running moment
    (.started r.1, r.2)
  | .finalizeAttempt attemptId workerId version status event moment errorCode errorMessage =>
    let r := db.finalizeAttempt attemptId workerId version status event moment errorCode errorMessage
    (.ofExcept .finalized r.1, r.2)
  | .transitionFailedAttempt attemptId version retryDelay now errorCode errorMessage workerId before =>
    let r := db.transitionFailedAttempt attemptId version retryDelay now errorCode errorMessage workerId before
    (.ofExcept .transitioned r.1, r.2)
  | .cancel runId moment event =>
    let r := db.cancel runId moment event
    (.cancelled r.1, r.2)
  | .listRecoverable moment limit => (.listed (db.listRecoverable moment limit), db)
  | .appendEvent event =>
    let r := db.appendEvent event
    (.appended r.1, r.2)

namespace Stores

def step (w : Stores) (call : RepositoryCall) : Option Stores :=
  some { memory := (w.memory.answer call).2, postgres := (w.postgres.answer call).2 }

def EndsRun (runId : String) (event : ActivityEvent) : Prop :=
  event.runId = some runId ∧ TerminalEventId runId event.id

/-- An activity event of a stored run: unnumbered, under an id that no other run
uses and that ends none. -/
structure Activity (w : Stores) (event : ActivityEvent) : Prop where
  run : ∃ runId, event.runId = some runId ∧ (w.memory.items.get? runId).isSome
  unnumbered : event.sequence = 0
  type : event.eventType ≠ "run.cancelled"
  id : ∀ hex, ¬TerminalEventId (newId "run" hex) event.id
  own : ∀ row ∈ w.postgres.runEvents.table.rows, row.id = event.id → row.runId = event.runId

def Proper (w : Stores) : RepositoryCall → Prop
  | .submit new => w.memory.Fresh new
  | .finalizeAttempt attemptId _ _ _ event _ _ _ =>
    ∀ a, w.memory.attempts.get? attemptId = some a → EndsRun a.runId event
  | .cancel runId _ event => ∀ e, event = some e → EndsRun runId e
  | .appendEvent event => w.Activity event
  | _ => True

def Truncates (w : Stores) : RepositoryCall → Prop
  | .listRecoverable moment limit =>
    max 1 limit < (w.memory.attempts.rows.filter (w.memory.recoverableAt moment)).length
  | _ => False

/-- Both give the call the same answer. -/
def Alike (w : Stores) (call : RepositoryCall) : Prop :=
  w.Truncates call ∨ RepositoryReply.Agrees (w.memory.answer call).1 (w.postgres.answer call).1

end Stores

/-! The in-memory store, whatever the calls. -/

/-- An unfinished run has no end yet: neither a time nor an event. -/
def Unended (v : RunView) : Prop :=
  v.run.status.terminal = false → v.run.completedAt = none ∧
    ∀ e ∈ v.events, ¬TerminalEventId v.run.id e.id ∧ e.eventType ≠ "run.cancelled"

def AppendsActivity (runId : String) : Deed → Prop
  | .appended event => ¬TerminalEventId runId event.id ∧ event.eventType ≠ "run.cancelled"
  | _ => True

theorem Change.unended {v v' : RunView} (h : Change (AppendsActivity v.run.id) v v') (hu : Unended v) :
    Unended v' := by
  cases h with
  | same => exact hu
  | claimed => exact hu
  | renewed => exact hu
  | started moment queued => exact fun _ => ⟨rfl, (hu (by rw [queued]; rfl)).2⟩
  | settled status event errorCode errorMessage moment attempts running unsettled terminal =>
    intro ht
    rw [show (v.run.settled status moment).status = status from rfl, terminal] at ht
    cases ht
  | retried errorCode errorMessage retryDelay now attempts running unsettled =>
    exact fun _ => hu unsettled
  | cancelled => exact nofun
  | appended event new later does =>
    intro ht
    refine ⟨(hu ht).1, fun e he => ?_⟩
    obtain he | he := List.mem_append.mp he
    · exact (hu ht).2 e he
    · obtain rfl := List.mem_singleton.mp he
      exact does

structure RunRepository.Regular (s : RunRepository) : Prop extends WellFormed s where
  generated : ∀ r, (s.items.get? r).isSome → ∃ hex, r = newId "run" hex
  unended : ∀ r v, s.view r = some v → Unended v

namespace RepositoryCall

/-- The call as one of those that change the store. -/
def op? : RepositoryCall → Option RunOp
  | .submit new => some (.submit new)
  | .claim runId workerId lease moment => some (.claim runId workerId lease moment)
  | .heartbeat attemptId workerId lease version moment =>
    some (.heartbeat attemptId workerId lease version moment)
  | .start runId moment => some (.start runId moment)
  | .finalizeAttempt attemptId workerId version status event moment errorCode errorMessage =>
    some (.finalizeAttempt attemptId workerId version status event moment errorCode errorMessage)
  | .transitionFailedAttempt attemptId version retryDelay now errorCode errorMessage workerId before =>
    some (.transitionFailedAttempt attemptId version retryDelay now errorCode errorMessage workerId before)
  | .cancel runId moment event => some (.cancel runId moment event)
  | .listRecoverable _ _ => none
  | .appendEvent event => some (.appendEvent event)

theorem answer_eq (s : RunRepository) (call : RepositoryCall) :
    (s.answer call).2 = call.op?.elim s (·.apply s) := by
  cases call <;> rfl

end RepositoryCall

variable {w : Stores}

theorem RepositoryCall.appendsActivity {call : RepositoryCall} (hp : w.Proper call)
    (hg : ∀ r, (w.memory.items.get? r).isSome → ∃ hex, r = newId "run" hex) {op : RunOp}
    (hop : call.op? = some op) {runId : String} {deed : Deed} (hd : op.Does w.memory runId deed) :
    AppendsActivity runId deed := by
  cases call with
  | listRecoverable => cases hop
  | appendEvent event =>
    obtain rfl := Option.some.inj hop
    obtain ⟨hr, n, m, rfl⟩ := hd
    obtain ⟨r, her, hstored⟩ := hp.run
    obtain ⟨hex, rfl⟩ := hg r hstored
    rw [her] at hr
    exact hr ▸ ⟨hp.id hex, hp.type⟩
  | submit =>
    obtain rfl := Option.some.inj hop
    exact hd.elim
  | claim =>
    obtain rfl := Option.some.inj hop
    obtain ⟨-, a, -, -, rfl⟩ := hd
    trivial
  | heartbeat =>
    obtain rfl := Option.some.inj hop
    obtain ⟨a, -, -, rfl⟩ := hd
    trivial
  | start =>
    obtain rfl := Option.some.inj hop
    obtain ⟨-, rfl⟩ := hd
    trivial
  | finalizeAttempt =>
    obtain rfl := Option.some.inj hop
    obtain ⟨a, -, -, -, rfl⟩ := hd
    trivial
  | transitionFailedAttempt =>
    obtain rfl := Option.some.inj hop
    obtain ⟨run, a, errorCode, now, -, -, -, -, -, -, rfl⟩ := hd
    rw [failureDeed]
    split <;> trivial
  | cancel =>
    obtain rfl := Option.some.inj hop
    obtain ⟨-, rfl⟩ := hd
    trivial

theorem Stores.Proper.admissible {call : RepositoryCall} (hp : w.Proper call) {op : RunOp}
    (hop : call.op? = some op) : op.Admissible w.memory := by
  cases call <;> cases hop <;> first | exact hp | trivial

theorem RunRepository.Regular.answer (h : w.memory.Regular) {call : RepositoryCall}
    (hp : w.Proper call) : (w.memory.answer call).2.Regular := by
  rw [RepositoryCall.answer_eq]
  cases hop : call.op? with
  | none => exact h
  | some op =>
    have hstep : RunOp.step w.memory op = some (op.apply w.memory) := if_pos (hp.admissible hop)
    have hw := RunOp.step_wellFormed h.toWellFormed hstep
    obtain ⟨new, rfl, hf, he⟩ | hsteps := RunOp.step_cases h.toWellFormed hstep
    · rw [Option.elim_some, he] at *
      refine { hw with generated := ?_, unended := ?_ }
      · intro r hr
        rw [submit_eq hf, Table.get?_put] at hr
        split at hr
        next heq => exact ⟨new.runHex, heq.symm⟩
        next => exact h.generated r hr
      · intro r v hv
        by_cases hr : new.run.id = r
        · subst hr
          rw [submit_view_self hf h.toWellKeyed] at hv
          exact Option.some.inj hv ▸ fun _ => ⟨rfl, by simp⟩
        · rw [submit_view_of_ne hf hr] at hv
          exact h.unended r v hv
    · refine { hw with generated := fun r hr => h.generated r (hsteps.stored r ▸ hr), unended := ?_ }
      intro r v' hv'
      obtain ⟨v, hv⟩ := hsteps.view_of_view hv'
      obtain ⟨v'', hv'', hc⟩ := hsteps.view r v hv
      obtain rfl := Option.some.inj (hv''.symm.trans hv')
      refine Change.unended ?_ (h.unended r v hv)
      exact view_run_id hv ▸ hc.mono fun deed hd => RepositoryCall.appendsActivity hp h.generated hop hd

end SelericSwarm
