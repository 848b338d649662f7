import SelericSwarm.Machine
import SelericSwarm.Table

/-! Live progress: the sinks of `agent/progress.py`, and the executions of `_execute_submission` in one process that
register them, emit to them and clear them. -/
namespace SelericSwarm.Progress
open Keyed List

/-- One attempt at a run, as `_execute_submission` gets it. -/
structure Execution where
  runId : String
  attemptId : String
  missionId : Option String
  deriving DecidableEq

/-- `run.mission_id or ""` -/
def Execution.progressKey (e : Execution) : String := e.missionId.getD ""

/-- What an agent reports. -/
structure Report where
  eventType : String
  summary : String
  payload : Dict String (Option String)

/-- The event that is stored of it. -/
structure ProgressEvent where
  id : String
  runId : String
  eventType : String
  summary : String
  payload : Dict String (Option String)

/-- The `_progress` of an execution, with the steps it has counted. -/
structure ProgressSink where
  execution : Execution
  step : Nat := 0

def progressId (e : Execution) (step : Nat) : String :=
  "event_" ++ e.runId ++ "_" ++ e.attemptId ++ "_progress_" ++ toString step

/-- The event of the next step. -/
def ProgressSink.event (sink : ProgressSink) (report : Report) : ProgressEvent where
  id := progressId sink.execution (sink.step + 1)
  runId := sink.execution.runId
  eventType := report.eventType
  summary := report.summary
  payload := (report.payload.set "mission_id" sink.execution.missionId).set "route" (some "v3")

/-- The process; `stored` says also whose agent has made the report. -/
structure World where
  sinks : Dict String ProgressSink := .empty
  running : List Execution := []
  stored : List (Execution × ProgressEvent) := []

def setProgressSink (sinks : Dict String ProgressSink) (missionId : String) (sink : ProgressSink) :
    Dict String ProgressSink :=
  sinks.set missionId sink

def clearProgressSink (sinks : Dict String ProgressSink) (missionId : String) : Dict String ProgressSink :=
  Table.erase sinks missionId

/-- `emit_progress` by the agent of an execution; where the sink raises, nothing is stored. -/
def emitProgress (w : World) (e : Execution) (report : Report) (raises : Bool) : World :=
  match w.sinks.get? e.progressKey with
  | none => w
  | some sink =>
    { w with
      sinks := w.sinks.set e.progressKey { sink with step := sink.step + 1 }
      stored := if raises then w.stored else w.stored ++ [(e, sink.event report)] }

inductive Step where
  | start (e : Execution)
  | progress (e : Execution) (report : Report) (raises : Bool)
  /-- The `finally` of the execution, however it ends. -/
  | finish (e : Execution)

def step (w : World) : Step → Option World
  | .start e =>
    if e ∈ w.running then none
    else some { w with sinks := setProgressSink w.sinks e.progressKey { execution := e }, running := e :: w.running }
  | .progress e report raises => some (emitProgress w e report raises)
  | .finish e =>
    if e ∈ w.running then
      some { w with sinks := clearProgressSink w.sinks e.progressKey, running := w.running.filter (· ≠ e) }
    else none

/-- Every report stored is its execution's own, every execution that runs is heard, and nothing stays registered. -/
structure Lawful (w : World) : Prop where
  attributed : ∀ e event, (e, event) ∈ w.stored → event.runId = e.runId ∧ ∃ n, event.id = progressId e n
  heard : ∀ e ∈ w.running, ∀ report, ∃ event n, (emitProgress w e report false).stored = w.stored ++ [(e, event)] ∧
    event.runId = e.runId ∧ event.id = progressId e n
  cleared : w.running = [] → w.sinks.rows = []

/-- No execution starts, or reports when it has ended, while another one with its key runs. -/
def Apart (w : World) : Step → Prop
  | .start e => ∀ r ∈ w.running, r.progressKey ≠ e.progressKey
  | .progress e _ _ => e ∈ w.running ∨ ∀ r ∈ w.running, r.progressKey ≠ e.progressKey
  | .finish _ => True

instance : (w : World) → (a : Step) → Decidable (Apart w a)
  | w, .start e => inferInstanceAs (Decidable (∀ r ∈ w.running, r.progressKey ≠ e.progressKey))
  | w, .progress e _ _ => inferInstanceAs (Decidable (e ∈ w.running ∨ ∀ r ∈ w.running, r.progressKey ≠ e.progressKey))
  | _, .finish _ => inferInstanceAs (Decidable True)

/-- The sinks are those of the executions that run. -/
structure Registered (w : World) : Prop where
  own : ∀ e ∈ w.running, ∃ n, w.sinks.get? e.progressKey = some ⟨e, n⟩
  only : ∀ k sink, w.sinks.get? k = some sink → sink.execution ∈ w.running ∧ sink.execution.progressKey = k
  attributed : ∀ e event, (e, event) ∈ w.stored → event.runId = e.runId ∧ ∃ n, event.id = progressId e n

variable {w w' : World} {e r : Execution} {report : Report} {raises : Bool}

theorem Registered.eq_of_key (h : Registered w) (he : e ∈ w.running) (hr : r ∈ w.running)
    (hkey : r.progressKey = e.progressKey) : r = e := by
  obtain ⟨n, hn⟩ := h.own e he
  obtain ⟨m, hm⟩ := h.own r hr
  rw [hkey, hn] at hm
  exact (congrArg ProgressSink.execution (Option.some.inj hm)).symm

theorem emitProgress_none (h : w.sinks.get? e.progressKey = none) : emitProgress w e report raises = w := by
  simp only [emitProgress, h]

theorem emitProgress_some {sink : ProgressSink} (h : w.sinks.get? e.progressKey = some sink) :
    emitProgress w e report raises =
      { w with
        sinks := w.sinks.set e.progressKey { sink with step := sink.step + 1 }
        stored := if raises then w.stored else w.stored ++ [(e, sink.event report)] } := by
  simp only [emitProgress, h]

theorem Registered.start (h : Registered w) (hapart : ∀ r ∈ w.running, r.progressKey ≠ e.progressKey) :
    Registered { w with sinks := setProgressSink w.sinks e.progressKey { execution := e }, running := e :: w.running } := by
  refine ⟨?_, ?_, h.attributed⟩
  · intro r hr
    obtain rfl | hr := mem_cons.mp hr
    · exact ⟨0, Dict.get?_set_self _ _ _⟩
    · obtain ⟨n, hn⟩ := h.own r hr
      exact ⟨n, (Dict.get?_set_of_ne _ _ (hapart r hr).symm).trans hn⟩
  · intro k sink hsink
    simp only [setProgressSink, Dict.get?_set] at hsink
    split at hsink
    · next hk =>
      cases hsink
      exact ⟨mem_cons_self, hk⟩
    · obtain ⟨hrunning, hkey⟩ := h.only k sink hsink
      exact ⟨mem_cons_of_mem e hrunning, hkey⟩

theorem Registered.progress (h : Registered w) (hapart : e ∈ w.running ∨ ∀ r ∈ w.running, r.progressKey ≠ e.progressKey) :
    Registered (emitProgress w e report raises) := by
  cases hget : w.sinks.get? e.progressKey with
  | none =>
    rw [emitProgress_none hget]
    exact h
  | some sink =>
    obtain ⟨hrunning, hkey⟩ := h.only _ _ hget
    have hown : sink.execution = e := by
      obtain he | hnone := hapart
      · exact h.eq_of_key he hrunning hkey
      · exact absurd hkey (hnone _ hrunning)
    rw [emitProgress_some hget]
    refine ⟨?_, ?_, ?_⟩
    · intro r hr
      obtain ⟨n, hn⟩ := h.own r hr
      by_cases hsame : e.progressKey = r.progressKey
      · obtain rfl : r = sink.execution := h.eq_of_key hrunning hr (hsame.symm.trans hkey.symm)
        refine ⟨sink.step + 1, ?_⟩
        rw [hkey]
        exact Dict.get?_set_self _ _ _
      · exact ⟨n, (Dict.get?_set_of_ne _ _ hsame).trans hn⟩
    · intro k found hfound
      rw [Dict.get?_set] at hfound
      split at hfound
      · next hk =>
        cases hfound
        exact ⟨hrunning, hkey.trans hk⟩
      · exact h.only k found hfound
    · intro r event hmem
      cases raises with
      | true => exact h.attributed r event hmem
      | false =>
        obtain hold | hnew := mem_append.mp hmem
        · exact h.attributed r event hold
        · obtain ⟨rfl, rfl⟩ := Prod.mk.inj (mem_singleton.mp hnew)
          rw [← hown]
          exact ⟨rfl, _, rfl⟩

theorem Registered.finish (h : Registered w) (he : e ∈ w.running) :
    Registered { w with sinks := clearProgressSink w.sinks e.progressKey, running := w.running.filter (· ≠ e) } := by
  refine ⟨?_, ?_, h.attributed⟩
  · intro r hr
    obtain ⟨hrunning, hne⟩ := mem_filter.mp hr
    have hkey : e.progressKey ≠ r.progressKey := fun hkey =>
      of_decide_eq_true hne (h.eq_of_key he hrunning hkey.symm)
    obtain ⟨n, hn⟩ := h.own r hrunning
    refine ⟨n, ?_⟩
    simp only [clearProgressSink, Dict.get?_erase, if_neg hkey]
    exact hn
  · intro k sink hsink
    simp only [clearProgressSink, Dict.get?_erase] at hsink
    split at hsink
    · cases hsink
    · next hk =>
      obtain ⟨hrunning, hkey⟩ := h.only k sink hsink
      refine ⟨mem_filter.mpr ⟨hrunning, decide_eq_true ?_⟩, hkey⟩
      rintro rfl
      exact hk hkey

theorem Registered.step {a : Step} (h : Registered w) (hapart : Apart w a) (hstep : step w a = some w') :
    Registered w' := by
  cases a with
  | start e =>
    simp only [Progress.step, Option.ite_none_left_eq_some, Option.some.injEq] at hstep
    obtain ⟨-, rfl⟩ := hstep
    exact h.start hapart
  | progress e report raises =>
    cases hstep
    exact h.progress hapart
  | finish e =>
    simp only [Progress.step, Option.ite_none_right_eq_some, Option.some.injEq] at hstep
    obtain ⟨he, rfl⟩ := hstep
    exact h.finish he

theorem Registered.lawful (h : Registered w) : Lawful w := by
  refine ⟨h.attributed, ?_, ?_⟩
  · intro e he report
    obtain ⟨n, hn⟩ := h.own e he
    rw [emitProgress_some hn]
    exact ⟨_, n + 1, rfl, rfl, rfl⟩
  · intro hnone
    rw [eq_nil_iff_forall_not_mem]
    intro row hrow
    have hget : Table.get? w.sinks row.1 = some row := Table.get?_of_mem hrow
    have hrunning := (h.only row.1 row.2 (by rw [Dict.get?, hget]; rfl)).1
    rw [hnone] at hrunning
    exact absurd hrunning not_mem_nil

theorem initial_registered : Registered {} := by
  refine ⟨?_, ?_, ?_⟩
  · exact fun e he => absurd he not_mem_nil
  · intro k sink hget
    cases hget
  · exact fun e event hmem => absurd hmem not_mem_nil

/-- In a run whose executions of one key keep apart, progress belongs to the attempt that makes it. -/
theorem progress_lawful {steps : List Step} (hapart : Machine.Along step Apart {} steps)
    (hrun : Machine.exec step {} steps = some w) : Lawful w :=
  (Machine.invariant_along (fun _ _ _ h ha hs => Registered.step h ha hs)
    initial_registered hapart hrun).lawful

/-- An attempt whose lease has run out, and the next one of its run. -/
def lateAttempt : Execution := ⟨"run_1", "attempt_1", some "mission_1"⟩

def nextAttempt : Execution := ⟨"run_1", "attempt_2", some "mission_1"⟩

def toolStarted : Report := ⟨"agent.tool_started", "Forecasting", Dict.empty.set "tool" (some "forecast")⟩

def oneByOne : List Step :=
  [.start lateAttempt, .progress lateAttempt toolStarted false, .finish lateAttempt, .start nextAttempt,
    .progress nextAttempt toolStarted false]

theorem progress_one_by_one : ∃ w, Machine.exec step {} oneByOne = some w ∧ Lawful w := by
  have hsome : (Machine.exec step {} oneByOne).isSome = true := by decide
  obtain ⟨w, hw⟩ := Option.isSome_iff_exists.mp hsome
  exact ⟨w, hw, progress_lawful (by decide) hw⟩

/-- The late attempt ends while the next one runs: what that one reports is lost. -/
theorem next_attempt_silenced : ∃ w,
    Machine.exec step {} [.start lateAttempt, .start nextAttempt, .finish lateAttempt] = some w ∧ ¬ Lawful w := by
  refine ⟨_, rfl, fun h => ?_⟩
  obtain ⟨event, n, hstored, -⟩ := h.heard nextAttempt (by decide) toolStarted
  have hlength : 0 = 1 := congrArg List.length hstored
  cases hlength

end SelericSwarm.Progress
