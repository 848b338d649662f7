import SelericSwarm.MetricEvidence
import Mathlib.Logic.Relation

/-! `drilldown`, and what the semantic tools can do to a mission at all: query through the
cache, drill down through the cache, put an artifact and count. -/
namespace SelericSwarm.Agent
open Keyed

structure DrilldownCall where
  metricId : String
  dimension : String
  periodStart : Datetime
  periodEnd : Datetime
  deriving DecidableEq

def texts : Json → List String
  | .arr items => items.filterMap fun item =>
    match item with
    | .str s => some s
    | _ => none
  | _ => []

/-- `_resolve_drilldown_parent_id`; nothing where the parent spans several views. -/
def resolveDrilldownParentId (parent : Answer) : Option String :=
  if parent.composed || (parent.provenance.get? "composed").any truthy then
    let listed := (parent.provenance.get? "part_query_ids").elim [] texts
    let partIds :=
      if parent.partQueryIds ≠ [] then parent.partQueryIds
      else if listed ≠ [] then listed
      else parent.parts
    match partIds.filter (· ≠ "") with
    | [partId] => some partId
    | _ => none
  else some parent.queryId

section Drilldown
variable (env : Environment) (deps : SelericDeps)

/-- The query a drilldown starts from: the unfiltered total, for the default brand. -/
def DrilldownCall.parentArgs (call : DrilldownCall) : MetricsArgs :=
  buildMetricsQueryArgs env.lower call.metricId call.periodStart.date.isoformat
    call.periodEnd.date.isoformat none [] [] none [] true

def DrilldownCall.evidence (call : DrilldownCall) (parent : Answer) (row : Row) (value : Json) :
    Option EvidenceArtifact :=
  (env.float value).map fun value =>
    { metricId := call.metricId
      dimensions := Dict.empty.set call.dimension (env.text (dimensionValue row call.dimension))
      grain := "none"
      asOf := deps.asOf
      periodStart := call.periodStart
      periodEnd := call.periodEnd
      value
      sourceQuery := .metricsDrilldown
        { parentQueryId := parent.queryId, targetDimensions := [call.dimension] } }

/-- The loop over the rows; nothing where it raises. -/
def DrilldownCall.writeRows (call : DrilldownCall) (parent answer : Answer) :
    List Row → Mission → Option (List String) × Mission
  | [], m => (some [], m)
  | row :: rows, m =>
    match measured call.metricId row with
    | none => call.writeRows parent answer rows m
    | some value =>
      match call.evidence env deps parent row value with
      | none => (none, m)
      | some evidence =>
        let artifact := newEvidence env deps m evidence ("raw:" ++ call.metricId ++ ":" ++ call.dimension ++
          ":" ++ env.text (dimensionValue row call.dimension)) { sourceMetadata := answer.provenance }
        match m.put artifact with
        | none => (none, m)
        | some m =>
          let (rest, m) := call.writeRows parent answer rows m
          (rest.map (artifact.id :: ·), m)

def DrilldownCall.respond (call : DrilldownCall) (parent answer : Answer) (m : Mission) :
    ToolOutcome × Mission :=
  let what := call.metricId ++ " by " ++ call.dimension
  if answer.rows = [] then (.returned (insufficient ("no drilldown rows for " ++ what)), m)
  else
    match call.writeRows env deps parent answer answer.rows m with
    | (none, m) => (.raised, m)
    | (some [], m) =>
      (.returned (insufficient ("drilldown rows for " ++ what ++ " had no usable values")), m)
    | (some ids, m) =>
      (.returned {
        success := true
        artifactIds := ids
        summary := what ++ ": " ++ toString ids.length ++ " row(s)"
        provenance := { sourceMetadata := answer.provenance } }, m)

def severalViews (metricId : String) : ToolResult :=
  insufficient ("'" ++ metricId ++ "' spans multiple Cube views, so it can't be drilled down as one query. " ++
    "Pick a single-view metric for the '" ++ metricId ++ "' concept and retry.")

/-- The drilldown request itself. -/
def DrilldownCall.drill (call : DrilldownCall) (parent : Answer) (parentQueryId : String) (m : Mission) :
    ToolOutcome × Mission :=
  let (reply, m) := cachedDrilldown env m { parentQueryId, targetDimensions := [call.dimension] }
  match reply with
  | .raised type message unavailable => (.returned (mcpErrorResult type message unavailable), m)
  | .other true => (.raised, m)
  | .null | .other false => call.respond env deps parent {} m
  | .answer answer => call.respond env deps parent answer m

def drilldown (call : DrilldownCall) (m : Mission) : ToolOutcome × Mission :=
  let (parent, m) := cachedMetricsQuery env m (call.parentArgs env)
  if parent.error ≠ "" || parent.queryId = "" then
    (.returned (fetchFailure ("drilldown(" ++ call.metricId ++ ") parent query")
      (if parent.error ≠ "" then parent.error else "no query_id")), m)
  else
    match resolveDrilldownParentId parent with
    | none => (.returned (severalViews call.metricId), m)
    | some parentQueryId => call.drill env deps parent parentQueryId m

end Drilldown

/-! What a tool can do. -/

inductive Effect (env : Environment) : Mission → Mission → Prop where
  | query (m : Mission) (args : MetricsArgs) : Effect env m (cachedMetricsQuery env m args).2
  | drilldown (m : Mission) (args : DrilldownArgs) : Effect env m (cachedDrilldown env m args).2
  | put {m m' : Mission} (artifact : Artifact) : m.put artifact = some m' → Effect env m m'
  | count (m : Mission) (counts : Dict CountKey Nat) : Effect env m { m with callCounts := counts }

abbrev Effects (env : Environment) : Mission → Mission → Prop := Relation.ReflTransGen (Effect env)

section Effects
variable (env : Environment) (deps : SelericDeps)

theorem Effects.query (m : Mission) (args : MetricsArgs) : Effects env m (cachedMetricsQuery env m args).2 :=
  .single (.query m args)

section
variable (q : Query) (args : MetricsArgs) (answer : Answer)
include q args answer

theorem writeRow_effects (row : Row) (m : Mission) : Effects env m (writeRow env deps q args answer row m).2 := by
  unfold writeRow
  split
  · exact .refl
  · split
    · exact .refl
    · dsimp only
      split
      · exact .refl
      next hput => exact .single (.put _ hput)

theorem writeRows_effects (rows : List Row) :
    ∀ m : Mission, Effects env m (writeRows env deps q args answer rows m).2 := by
  induction rows with
  | nil => exact fun m => .refl
  | cons row rows ih =>
    intro m
    have hrow := writeRow_effects env deps q args answer row m
    rw [writeRows]
    split
    next m' h => rwa [h] at hrow
    next written m' h =>
      rw [h] at hrow
      exact hrow.trans (ih m')

theorem writeEvidence_effects (m : Mission) : Effects env m (writeEvidence env deps q args answer m).2 := by
  have hrows := writeRows_effects env deps q args answer answer.rows m
  unfold writeEvidence
  split
  all_goals
    next h => rwa [h] at hrows

end

theorem noRowsResult_effects (q : Query) (filters : List Filter) (m : Mission) :
    Effects env m (noRowsResult env q filters m).2 := by
  unfold noRowsResult
  dsimp only
  split
  · exact .refl
  · unfold suggestCloseValues
    dsimp only
    split
    all_goals exact Effects.query env m _

theorem fetch_effects (q : Query) (m : Mission) : Effects env m (fetch env deps q m).2 := by
  unfold fetch
  dsimp only
  split
  · exact (Effects.query env m _).trans (Effects.query env _ _)
  · exact Effects.query env m _

section
variable (call : DrilldownCall)
include call

theorem DrilldownCall.writeRows_effects (parent answer : Answer) (rows : List Row) :
    ∀ m : Mission, Effects env m (call.writeRows env deps parent answer rows m).2 := by
  induction rows with
  | nil => exact fun m => .refl
  | cons row rows ih =>
    intro m
    rw [DrilldownCall.writeRows]
    split
    · exact ih m
    · split
      · exact .refl
      · dsimp only
        split
        · exact .refl
        next m' hput => exact (Relation.ReflTransGen.single (.put _ hput)).trans (ih m')

theorem DrilldownCall.respond_effects (parent answer : Answer) (m : Mission) :
    Effects env m (call.respond env deps parent answer m).2 := by
  have hrows := call.writeRows_effects env deps parent answer answer.rows m
  unfold DrilldownCall.respond
  dsimp only
  split
  · exact .refl
  · split
    all_goals
      next h => rwa [h] at hrows

theorem DrilldownCall.drill_effects (parent : Answer) (parentQueryId : String) (m : Mission) :
    Effects env (cachedDrilldown env m { parentQueryId, targetDimensions := [call.dimension] }).2
      (call.drill env deps parent parentQueryId m).2 := by
  unfold DrilldownCall.drill
  dsimp only
  split
  · exact .refl
  · exact .refl
  all_goals exact call.respond_effects env deps _ _ _

theorem drilldown_effects_parent (m : Mission) :
    Effects env (cachedMetricsQuery env m (call.parentArgs env)).2 (drilldown env deps call m).2 := by
  unfold drilldown
  dsimp only
  split
  · exact .refl
  · cases resolveDrilldownParentId (cachedMetricsQuery env m (call.parentArgs env)).1 with
    | none => exact .refl
    | some parentQueryId => exact .head (.drilldown _ _) (call.drill_effects env deps _ parentQueryId _)

theorem drilldown_effects (m : Mission) : Effects env m (drilldown env deps call m).2 :=
  (Effects.query env m _).trans (drilldown_effects_parent env deps call m)

end

/-! What an effect leaves alone: what is cached stays, and what is written stays. -/

theorem cachedMetricsQuery_cases (m : Mission) (args : MetricsArgs) :
    (∃ answer, m.queries.get? args = some answer ∧ cachedMetricsQuery env m args = (answer, m)) ∨
      m.queries.get? args = none ∧
        (((m.budget.consume .cubeQueries 1).1.ok = true ∧ ∃ counts,
            cachedMetricsQuery env m args = (flattened (env.metricsQuery m.calls args),
              { m with
                queries := m.queries.set args (flattened (env.metricsQuery m.calls args))
                budget := (m.budget.consume .cubeQueries 1).2
                callCounts := counts
                calls := m.calls ++ [.metricsQuery args] })) ∨
          (m.budget.consume .cubeQueries 1).1.ok = false ∧ ∃ reason counts,
            cachedMetricsQuery env m args = (exhausted reason, { m with callCounts := counts })) := by
  unfold cachedMetricsQuery
  cases hstored : m.queries.get? args with
  | some answer => exact Or.inl ⟨answer, rfl, rfl⟩
  | none =>
    refine Or.inr ⟨rfl, ?_⟩
    dsimp only
    split
    next hok =>
      refine Or.inl ⟨hok, ?_⟩
      unfold callMetricsQuery
      dsimp only
      split
      · exact ⟨_, rfl⟩
      · exact ⟨_, rfl⟩
    next hok => exact Or.inr ⟨by simpa using hok, _, _, rfl⟩

theorem cachedDrilldown_cases (m : Mission) (args : DrilldownArgs) :
    (∃ reply, m.drilldowns.get? args = some reply ∧ cachedDrilldown env m args = (reply, m)) ∨
      m.drilldowns.get? args = none ∧ ∃ reply, reply = env.metricsDrilldown m.calls args ∧
        cachedDrilldown env m args = (reply, { m with
          drilldowns := if reply.kept then m.drilldowns.set args reply else m.drilldowns
          calls := m.calls ++ [.metricsDrilldown args] }) := by
  unfold cachedDrilldown
  cases hstored : m.drilldowns.get? args with
  | some reply => exact Or.inl ⟨reply, rfl, rfl⟩
  | none => exact Or.inr ⟨rfl, _, rfl, rfl⟩

variable {env}
variable {m m' : Mission} {artifact : Artifact}

theorem Mission.put_cases (h : m.put artifact = some m') :
    m.artifacts.get? artifact.id = none ∧
      m' = { m with artifacts := m.artifacts.put artifact, issued := m.issued + 1 } := by
  unfold Mission.put putArtifact at h
  cases hstored : m.artifacts.get? artifact.id with
  | some stored =>
    rw [hstored] at h
    cases h
  | none =>
    rw [hstored] at h
    exact ⟨rfl, (Option.some.inj h).symm⟩

theorem Effect.queries (h : Effect env m m') {args : MetricsArgs} {answer : Answer}
    (hstored : m.queries.get? args = some answer) : m'.queries.get? args = some answer := by
  cases h with
  | query args' =>
    obtain ⟨answer', -, he⟩ | ⟨hnone, ⟨-, counts, he⟩ | ⟨-, reason, counts, he⟩⟩ :=
      cachedMetricsQuery_cases env m args'
    · rwa [he]
    · rw [he]
      have hne : args' ≠ args := by
        rintro rfl
        rw [hstored] at hnone
        cases hnone
      exact (Dict.get?_set_of_ne _ _ hne).trans hstored
    · rwa [he]
  | drilldown args' =>
    obtain ⟨reply, -, he⟩ | ⟨-, reply, -, he⟩ := cachedDrilldown_cases env m args'
    · rwa [he]
    · rwa [he]
  | put artifact hput =>
    obtain ⟨-, rfl⟩ := Mission.put_cases hput
    exact hstored
  | count => exact hstored

theorem Effect.artifacts (h : Effect env m m') {id : String} (hstored : m.artifacts.get? id = some artifact) :
    m'.artifacts.get? id = some artifact := by
  cases h with
  | query args' =>
    obtain ⟨answer', -, he⟩ | ⟨-, ⟨-, counts, he⟩ | ⟨-, reason, counts, he⟩⟩ :=
      cachedMetricsQuery_cases env m args'
    all_goals rwa [he]
  | drilldown args' =>
    obtain ⟨reply, -, he⟩ | ⟨-, reply, -, he⟩ := cachedDrilldown_cases env m args'
    all_goals rwa [he]
  | put artifact' hput =>
    obtain ⟨hnone, rfl⟩ := Mission.put_cases hput
    have hne : artifact'.id ≠ id := by
      rintro rfl
      rw [hstored] at hnone
      cases hnone
    exact (Table.get?_put_of_ne _ hne).trans hstored
  | count => exact hstored

theorem Effect.results (h : Effect env m m') : m'.results = m.results := by
  cases h with
  | query args' =>
    obtain ⟨answer', -, he⟩ | ⟨-, ⟨-, counts, he⟩ | ⟨-, reason, counts, he⟩⟩ :=
      cachedMetricsQuery_cases env m args'
    all_goals rw [he]
  | drilldown args' =>
    obtain ⟨reply, -, he⟩ | ⟨-, reply, -, he⟩ := cachedDrilldown_cases env m args'
    all_goals rw [he]
  | put artifact hput =>
    obtain ⟨-, rfl⟩ := Mission.put_cases hput
    rfl
  | count => rfl

theorem Effects.queries (h : Effects env m m') {args : MetricsArgs} {answer : Answer}
    (hstored : m.queries.get? args = some answer) : m'.queries.get? args = some answer := by
  induction h with
  | refl => exact hstored
  | tail _ heffect ih => exact heffect.queries ih

theorem Effects.artifacts (h : Effects env m m') {id : String} (hstored : m.artifacts.get? id = some artifact) :
    m'.artifacts.get? id = some artifact := by
  induction h with
  | refl => exact hstored
  | tail _ heffect ih => exact heffect.artifacts ih

theorem Effects.results (h : Effects env m m') : m'.results = m.results := by
  induction h with
  | refl => rfl
  | tail _ heffect ih => exact heffect.results.trans ih

end Effects

end SelericSwarm.Agent
