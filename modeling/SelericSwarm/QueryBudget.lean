import SelericSwarm.SemanticTools
import SelericSwarm.Machine

/-! Tool calls of one mission that run side by side. A step is one stretch of
`_cached_metrics_query` between its awaits; what a tool call asks depends on the answers
it has had. -/
open Option

namespace SelericSwarm.Agent
open Keyed

/-- Where a tool call stands: between two queries, at a query of its own that is in flight,
at one that another call has sent, or at its end. -/
inductive ToolStage where
  | running
  | fetching (args : MetricsArgs)
  | waiting (args : MetricsArgs)
  | ended
  deriving DecidableEq

structure ToolTask where
  next : List Answer → Option MetricsArgs
  answers : List Answer := []
  stage : ToolStage := .running

namespace ToolTask

/-- The query it asks next. -/
def asks (t : ToolTask) : Option MetricsArgs := if t.stage = .running then t.next t.answers else none

def answered (answer : Answer) (t : ToolTask) : ToolTask :=
  { t with answers := t.answers ++ [answer], stage := .running }

def awaits (args : MetricsArgs) (t : ToolTask) : Bool :=
  decide (t.stage = .fetching args ∨ t.stage = .waiting args)

end ToolTask

/-- A mission and its tool calls; `inflight` are the keys of `_inflight`. -/
structure SharedMission where
  mission : Mission
  inflight : List MetricsArgs := []
  tasks : List ToolTask := []

inductive SharedStep where
  | begin (next : List Answer → Option MetricsArgs)
  | ask (task : Nat)
  | replied (args : MetricsArgs) (reply : Reply)
  | cancelled (task : Nat)

namespace SharedMission

/-- The budget allows another query. -/
def allowed (s : SharedMission) : Bool := (s.mission.budget.consume .cubeQueries 1).1.ok

/-- `_cached_metrics_query` up to its await; `get_or_fetch` joins a query that is in flight. -/
def ask (s : SharedMission) (index : Nat) (t : ToolTask) (args : MetricsArgs) : SharedMission :=
  match s.mission.queries.get? args with
  | some answer => { s with tasks := s.tasks.set index (t.answered answer) }
  | none =>
    if s.allowed then
      let budget := (s.mission.budget.consume .cubeQueries 1).2
      if args ∈ s.inflight then
        { s with mission := { s.mission with budget }, tasks := s.tasks.set index { t with stage := .waiting args } }
      else
        { mission := { s.mission with budget, calls := s.mission.calls ++ [.metricsQuery args] }
          inflight := s.inflight ++ [args]
          tasks := s.tasks.set index { t with stage := .fetching args } }
    else
      { s with
        mission := s.mission.withdraw ["query_metrics", "drilldown"]
        tasks := s.tasks.set index
          (t.answered (exhausted ((s.mission.budget.consume .cubeQueries 1).1.reason.getD "None"))) }

/-- The answer is stored and goes to every call that awaits it. -/
def receive (s : SharedMission) (args : MetricsArgs) (answer : Answer) : SharedMission where
  mission :=
    let m := { s.mission with queries := s.mission.queries.set args answer }
    if startsWith answer.error "NotImplementedError" then
      { m with callCounts := m.callCounts.set .liveDataUnavailable 1 }
    else m
  inflight := s.inflight.erase args
  tasks := s.tasks.map fun t => if t.awaits args then t.answered answer else t

/-- A call that is cancelled at its own query takes those that await it along. -/
def cancel (s : SharedMission) (index : Nat) (t : ToolTask) : SharedMission :=
  match t.stage with
  | .fetching args =>
    { s with
      inflight := s.inflight.erase args
      tasks := s.tasks.map fun t => if t.awaits args then { t with stage := .ended } else t }
  | _ => { s with tasks := s.tasks.set index { t with stage := .ended } }

def step (s : SharedMission) : SharedStep → Option SharedMission
  | .begin next => some { s with tasks := s.tasks ++ [{ next }] }
  | .ask index => s.tasks[index]?.bind fun t => t.asks.map (s.ask index t)
  | .replied args reply => if args ∈ s.inflight then some (s.receive args (flattened reply)) else none
  | .cancelled index => s.tasks[index]?.map (s.cancel index)

def fetches? (s : SharedMission) : SharedStep → Option MetricsArgs
  | .ask index => (s.tasks[index]?.bind ToolTask.asks).filter fun args => (s.mission.queries.get? args).isNone
  | _ => none

def refuses (s : SharedMission) (a : SharedStep) : Bool := (s.fetches? a).any fun _ => !s.allowed

/-- The step asks for a query that is in flight, with budget left. -/
def duplicates (s : SharedMission) (a : SharedStep) : Bool :=
  (s.fetches? a).any fun args => s.allowed && decide (args ∈ s.inflight)

/-- The `metrics_query` calls that have been started against the gateway. -/
def started (s : SharedMission) : Nat :=
  s.mission.calls.countP fun | .metricsQuery _ => true | .metricsDrilldown _ => false

def consumed (s : SharedMission) : Nat := s.mission.budget.used .cubeQueries

def maxCubeQueries (s : SharedMission) : Int := s.mission.budget.limits.maxCubeQueries

end SharedMission

/-! What a step does to the counts. -/

@[simp] theorem Mission.withdraw_budget (m : Mission) (tools : List String) :
    (m.withdraw tools).budget = m.budget := rfl

@[simp] theorem Mission.withdraw_calls (m : Mission) (tools : List String) :
    (m.withdraw tools).calls = m.calls := rfl

namespace SharedMission

variable {s s' : SharedMission} {a : SharedStep}

theorem allowed_iff : s.allowed = true ↔ (s.consumed : Int) + 1 ≤ s.maxCubeQueries := by
  simp only [allowed, ExecutionBudgetTracker.consume, consumed, maxCubeQueries]
  split
  next h =>
    simp only [ExecutionLimits.bound] at h
    simp
    omega
  next h =>
    simp only [ExecutionLimits.bound] at h
    simp
    omega

/-- What the counts become: an unstored query that the budget allows is paid for, and it is
started unless it is in flight. -/
structure Counts (s s' : SharedMission) (paid coalesced : Bool) : Prop where
  max : s'.maxCubeQueries = s.maxCubeQueries
  consumed : s'.consumed = s.consumed + paid.toNat
  started : s'.started = s.started + (paid && !coalesced).toNat

theorem counts_unpaid {coalesced : Bool} (hbudget : s'.mission.budget = s.mission.budget)
    (hcalls : s'.mission.calls = s.mission.calls) : Counts s s' false coalesced where
  max := by rw [maxCubeQueries, hbudget, maxCubeQueries]
  consumed := by rw [SharedMission.consumed, hbudget]; rfl
  started := by rw [SharedMission.started, hcalls]; rfl

theorem ask_counts (s : SharedMission) (index : Nat) (t : ToolTask) (args : MetricsArgs) :
    Counts s (s.ask index t args) ((s.mission.queries.get? args).isNone && s.allowed)
      (decide (args ∈ s.inflight)) := by
  cases hq : s.mission.queries.get? args with
  | some answer =>
    rw [ask, hq]
    exact counts_unpaid rfl rfl
  | none =>
    cases hallowed : s.allowed with
    | false =>
      simp only [ask, hq, hallowed]
      exact counts_unpaid rfl rfl
    | true =>
      obtain ⟨-, hused, hlimits⟩ := consume_used hallowed
      by_cases hin : args ∈ s.inflight
      · simp only [ask, hq, hallowed, hin, if_true]
        exact ⟨congrArg ExecutionLimits.maxCubeQueries hlimits, hused, by simp [started]⟩
      · simp only [ask, hq, hallowed, hin, if_true, if_false]
        exact ⟨congrArg ExecutionLimits.maxCubeQueries hlimits, hused, by simp [started]⟩

theorem step_counts (h : s.step a = some s') :
    Counts s s' ((s.fetches? a).any fun _ => s.allowed) (s.duplicates a) := by
  cases a with
  | begin next =>
    obtain rfl := Option.some.inj h
    exact counts_unpaid rfl rfl
  | replied args reply =>
    simp only [step] at h
    split at h
    · obtain rfl := Option.some.inj h
      refine counts_unpaid ?_ ?_ <;> simp only [receive] <;> split <;> rfl
    · cases h
  | cancelled index =>
    obtain ⟨t, -, rfl⟩ := map_eq_some_iff.mp h
    refine counts_unpaid ?_ ?_ <;> rw [cancel] <;> split <;> rfl
  | ask index =>
    obtain ⟨t, ht, hmap⟩ := bind_eq_some_iff.mp h
    obtain ⟨args, hasks, rfl⟩ := map_eq_some_iff.mp hmap
    have hcounts := s.ask_counts index t args
    have hfetches : s.fetches? (.ask index) =
        if (s.mission.queries.get? args).isNone then some args else none := by
      simp [fetches?, ht, hasks, Option.filter]
    cases hq : (s.mission.queries.get? args).isNone with
    | false =>
      rw [hq] at hcounts hfetches
      simp only [duplicates, hfetches, Bool.false_and] at hcounts ⊢
      exact ⟨hcounts.max, hcounts.consumed, hcounts.started⟩
    | true =>
      rw [hq] at hcounts hfetches
      cases hallowed : s.allowed <;> simp only [duplicates, hfetches, hallowed] <;>
        exact ⟨hcounts.max, by simpa [hallowed] using hcounts.consumed,
          by simpa [hallowed] using hcounts.started⟩

/-! The count over a run. -/

/-- Every query that is paid for has been started, within the limit. -/
structure Counted (s : SharedMission) : Prop where
  consumed_eq : s.consumed = s.started
  le_max : (s.consumed : Int) ≤ s.maxCubeQueries

theorem Counted.step (h : s.Counted) (hok : ¬s.duplicates a = true) (ha : s.step a = some s') : s'.Counted := by
  obtain ⟨hmax, hconsumed, hstarted⟩ := step_counts ha
  rw [Bool.eq_false_of_not_eq_true hok, Bool.not_false, Bool.and_true] at hstarted
  refine ⟨by rw [hconsumed, hstarted, h.consumed_eq], ?_⟩
  rw [hconsumed, hmax]
  cases hpaid : (s.fetches? a).any fun _ => s.allowed with
  | false => simpa using h.le_max
  | true =>
    obtain ⟨-, -, hallowed⟩ := (Option.any_eq_true _ _).mp hpaid
    simpa using allowed_iff.mp hallowed

theorem Counted.refused (h : s.Counted) (hrefused : s.refuses a = true) : s.maxCubeQueries ≤ s.started := by
  obtain ⟨args, -, hallowed⟩ := (Option.any_eq_true _ _).mp hrefused
  have := mt allowed_iff.mpr (by simpa using hallowed)
  have := h.consumed_eq
  omega

/-- A query that is paid for and not started is never made up for. -/
theorem not_counted_of_duplicates (h : s.Counted) (hdup : s.duplicates a = true) (ha : s.step a = some s') :
    ¬s'.Counted := by
  intro hs'
  obtain ⟨-, hconsumed, hstarted⟩ := step_counts ha
  have hpaid : ((s.fetches? a).any fun _ => s.allowed) = true := by
    obtain ⟨args, hargs, hd⟩ := (Option.any_eq_true _ _).mp hdup
    exact (Option.any_eq_true _ _).mpr ⟨args, hargs, (Bool.and_eq_true_iff.mp hd).1⟩
  have := hs'.consumed_eq
  have := h.consumed_eq
  simp [hpaid, hdup] at hconsumed hstarted
  omega

/-- A mission that has asked nothing yet. -/
def fresh (limits : ExecutionLimits) : SharedMission where
  mission := { budget := { limits } }

theorem step_of_duplicates (h : s.duplicates a = true) : ∃ s', s.step a = some s' := by
  obtain ⟨args, hargs, -⟩ := (Option.any_eq_true _ _).mp h
  cases a with
  | ask index =>
    obtain ⟨t, ht, hasks⟩ := bind_eq_some_iff.mp (filter_eq_some_iff.mp hargs).1
    exact ⟨s.ask index t args, by simp [step, ht, hasks]⟩
  | begin next => cases hargs
  | replied args reply => cases hargs
  | cancelled index => cases hargs

theorem cube_queries_counted_iff (limits : ExecutionLimits) (steps : List SharedStep) :
    (∀ before after s, steps = before ++ after → Machine.exec step (fresh limits) before = some s →
      s.consumed = s.started ∧ (s.consumed : Int) ≤ s.maxCubeQueries ∧
      ∀ a, after.head? = some a → s.refuses a = true → s.maxCubeQueries ≤ s.started) ↔
    0 ≤ limits.maxCubeQueries ∧
      Machine.Along step (fun s a => ¬s.duplicates a = true) (fresh limits) steps := by
  constructor
  · intro h
    have hcounted : ∀ before after s, steps = before ++ after →
        Machine.exec step (fresh limits) before = some s → s.Counted := fun before after s has he =>
      ⟨(h before after s has he).1, (h before after s has he).2.1⟩
    refine ⟨(hcounted [] steps _ rfl rfl).le_max, (Machine.along_iff steps _).mpr ?_⟩
    intro before a after s has he hdup
    obtain ⟨s', ha⟩ := step_of_duplicates hdup
    refine not_counted_of_duplicates (hcounted before _ s has he) hdup ha ?_
    refine hcounted (before ++ [a]) after s' (by simp [has]) ?_
    simp [Machine.exec_append, he, Machine.exec, ha]
  · rintro ⟨hmax, hrun⟩ before after s rfl he
    have hfresh : (fresh limits).Counted := ⟨rfl, hmax⟩
    have hs : s.Counted := Machine.invariant_along (I := Counted) (fun _ _ _ h hok ha => h.step hok ha)
      hfresh (Machine.along_append.mp hrun).1 he
    exact ⟨hs.consumed_eq, hs.le_max, fun a _ hrefused => hs.refused hrefused⟩

/-! Two calls for the same metric in one turn: both are paid for, one is sent. -/

def monthlySales : MetricsArgs where
  measures := ["sales"]
  startDate := "2026-01-01"
  endDate := "2026-01-31"
  filters := [defaultBrand]

/-- A call that asks one query. -/
def once (args : MetricsArgs) (answers : List Answer) : Option MetricsArgs :=
  if answers.isEmpty then some args else none

def sameTurn : List SharedStep := [.begin (once monthlySales), .begin (once monthlySales), .ask 0, .ask 1]

theorem sameTurn_not_counted :
    ¬∀ before after s, sameTurn = before ++ after → Machine.exec step (fresh {}) before = some s →
      s.consumed = s.started := by
  intro h
  have hrun : ((Machine.exec step (fresh {}) sameTurn).any fun s =>
      decide (s.consumed = 2 ∧ s.started = 1)) = true := by decide
  obtain ⟨s, he, hs⟩ := (Option.any_eq_true _ _).mp hrun
  obtain ⟨hconsumed, hstarted⟩ := of_decide_eq_true hs
  have := h sameTurn [] s (by simp) he
  omega

/-! A call with nothing in flight beside it is the cached query of the one-call model. -/

theorem alone_eq_cachedMetricsQuery (env : Environment) {index : Nat} {t : ToolTask} {args : MetricsArgs}
    (ht : s.tasks[index]? = some t) (hasks : t.asks = some args) (halone : s.inflight = []) :
    ∃ steps s', (steps = [] ∨ steps = [.replied args (env.metricsQuery s.mission.calls args)]) ∧
      Machine.exec step s (.ask index :: steps) = some s' ∧ s'.inflight = [] ∧
      s'.mission = (cachedMetricsQuery env s.mission args).2 ∧
      s'.tasks[index]? = some (t.answered (cachedMetricsQuery env s.mission args).1) := by
  have hask : s.step (.ask index) = some (s.ask index t args) := by simp [step, ht, hasks]
  have hindex : index < s.tasks.length := (List.getElem?_eq_some_iff.mp ht).1
  cases hq : s.mission.queries.get? args with
  | some answer =>
    refine ⟨[], s.ask index t args, .inl rfl, by simp [Machine.exec, hask], ?_⟩
    simp [ask, cachedMetricsQuery, hq, halone, hindex]
  | none =>
    cases hallowed : s.allowed with
    | false =>
      have hrefused : (s.mission.budget.consume .cubeQueries 1).1.ok = false := hallowed
      refine ⟨[], s.ask index t args, .inl rfl, by simp [Machine.exec, hask], ?_⟩
      simp [ask, cachedMetricsQuery, hq, halone, hindex, hallowed, hrefused]
    | true =>
      have hpaid : (s.mission.budget.consume .cubeQueries 1).1.ok = true := hallowed
      have hsent : args ∈ (s.ask index t args).inflight := by simp [ask, hq, hallowed, halone]
      refine ⟨[.replied args (env.metricsQuery s.mission.calls args)],
        (s.ask index t args).receive args (flattened (env.metricsQuery s.mission.calls args)), .inr rfl, ?_, ?_⟩
      · rw [Machine.exec, hask, bind_some, Machine.exec, step, if_pos hsent]
        rfl
      simp only [ask, halone, hallowed, List.not_mem_nil, if_false]
      simp only [receive, cachedMetricsQuery, callMetricsQuery, hq, hpaid, if_true]
      by_cases hdown : startsWith (flattened (env.metricsQuery s.mission.calls args)).error "NotImplementedError" <;>
        simp [hdown, hindex, ToolTask.awaits, ToolTask.answered]

/-- A gateway without data. -/
def emptyGateway : Environment where
  lower s := s
  text _ := ""
  float := some
  fromisoformat _ := none
  closeMatches _ _ := []
  uuid _ := .nil
  metricsQuery _ _ := .null
  metricsDrilldown _ _ := .null

def oneCall : SharedMission := { fresh {} with tasks := [{ next := once monthlySales }] }

theorem alone_eq_cachedMetricsQuery_oneCall : ∃ steps s',
    (steps = [] ∨ steps = [.replied monthlySales (emptyGateway.metricsQuery oneCall.mission.calls monthlySales)]) ∧
      Machine.exec step oneCall (.ask 0 :: steps) = some s' ∧ s'.inflight = [] ∧
      s'.mission = (cachedMetricsQuery emptyGateway oneCall.mission monthlySales).2 ∧
      s'.tasks[0]? = some (({ next := once monthlySales } : ToolTask).answered
        (cachedMetricsQuery emptyGateway oneCall.mission monthlySales).1) :=
  alone_eq_cachedMetricsQuery emptyGateway rfl rfl rfl

end SharedMission

end SelericSwarm.Agent
