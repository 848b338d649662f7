import SelericSwarm.Drilldown
import SelericSwarm.Machine

/-! Whether the evidence a call returns says what was queried: the dimensions of the executed
query, and the metric, period and dimensions a fresh call would write. -/
namespace SelericSwarm.Agent
open Keyed List Option

/-! What an executed query says about a row. -/

/-- The filters of the executed query other than an injected default brand, by their values, and
the breakdown by the value of the row. -/
def described (env : Environment) (args : MetricsArgs) (injected : Bool) (row : Row) : Dict String String :=
  let filters := if injected then args.filters.dropLast else args.filters
  args.dimensions.foldl (fun d key => d.set key (env.text (dimensionValue row key)))
    (filters.foldl (fun d f => d.set f.dimension (",".intercalate f.values)) Dict.empty)

section Claim
variable (env : Environment) (deps : SelericDeps)

/-- The builder adds the default brand to these filters. -/
def Query.injects (q : Query) (filters : List Filter) : Bool :=
  injectsBrand env.lower q.breakdown filters (supportsBrand env deps q.metricId)

def valuedRows (metricId : String) (rows : List Row) : List Row :=
  rows.filter fun row => (measured metricId row).isSome

/-- The artifact carries the dimensions of the executed query, and the metric, period and
dimensions of what a fresh call writes for the row. -/
def Reports (q : Query) (fetched : Fetched) (m : Mission) (id : String) (row : Row) : Prop :=
  ∃ artifact evidence value fresh, m.artifacts.get? id = some artifact ∧
    artifact.payload = .evidence evidence ∧ measured q.metricId row = some value ∧
    q.evidence env deps fetched.args fetched.answer row value = some fresh ∧
    evidence.dimensions = described env fetched.args (q.injects env deps fetched.filters) row ∧
    evidence.metricId = fresh.metricId ∧ evidence.dimensions = fresh.dimensions ∧
    evidence.periodStart = fresh.periodStart ∧ evidence.periodEnd = fresh.periodEnd

/-- A mission, and the queries whose results have been returned in it. -/
structure MissionRun where
  mission : Mission
  past : List (Query × ToolResult) := []

inductive ToolStep where
  | queryMetrics (call : QueryMetricsArgs)
  | drilldown (call : DrilldownCall)
  /-- Another tool writes an artifact. -/
  | put (artifact : Artifact)

/-- The results a step adds to the past. -/
def answered (call : QueryMetricsArgs) (outcome : ToolOutcome) : List (Query × ToolResult) :=
  match prepare env deps call, outcome with
  | .ok q, .returned result => [(q, result)]
  | _, _ => []

def MissionRun.step (s : MissionRun) : ToolStep → MissionRun
  | .queryMetrics call =>
    let (outcome, m) := queryMetrics env deps call s.mission
    { mission := m, past := s.past ++ answered env deps call outcome }
  | .drilldown call => { s with mission := (Agent.drilldown env deps call s.mission).2 }
  | .put artifact => { s with mission := (s.mission.put artifact).getD s.mission }

def Truthful (s : MissionRun) : ToolStep → Prop
  | .queryMetrics call =>
    ∀ q result, prepare env deps call = .ok q → (queryMetrics env deps call s.mission).1 = .returned result →
      result.success = true →
      List.Forall₂ (Reports env deps q (fetch env deps q s.mission).1 (s.step env deps (.queryMetrics call)).mission)
        result.artifactIds (valuedRows q.metricId (fetch env deps q s.mission).1.answer.rows)
  | _ => True

/-! When the code keeps to it. -/

/-- The query filters by a brand that the gateway does not know. -/
def FallsBack (q : Query) (m : Mission) : Prop :=
  unknownBrandError env (cachedMetricsQuery env m (q.args env deps q.filters)).1.error = true ∧
    q.filters.any (namesBrand env) = true

/-- Two queries give every row the same period: by the date in it, or by the bounds of both. -/
def SamePeriod (q q' : Query) (rows : List Row) : Prop :=
  q.grain = q'.grain ∧ q.periodStart.tzinfo = q'.periodStart.tzinfo ∧
    (q.periodStart = q'.periodStart ∧ q.periodEnd = q'.periodEnd ∨
      q.grain ≠ "none" ∧ ∀ row ∈ rows, (rowDate row).isSome = true)

/-- The call does not fall back, and agrees with earlier successful calls of the same executed
arguments on the period and on whether the default brand is a filter of its own. -/
def Plain (s : MissionRun) : ToolStep → Prop
  | .queryMetrics call => ∀ q, prepare env deps call = .ok q → ¬ FallsBack env deps q s.mission ∧
    ∀ entry ∈ s.past, entry.2.success = true →
      entry.1.args env deps entry.1.filters = q.args env deps q.filters →
      entry.1.injects env deps entry.1.filters = q.injects env deps q.filters ∧
        SamePeriod q entry.1 (cachedMetricsQuery env s.mission (q.args env deps q.filters)).1.rows
  | _ => True

end Claim

section Dimensions
variable {env : Environment} {deps : SelericDeps}

theorem rowDimensions_described (env : Environment) (deps : SelericDeps) (q : Query) (row : Row) :
    q.rowDimensions env row =
      described env (q.args env deps q.filters) (q.injects env deps q.filters) row := by
  have hfilters : (if q.injects env deps q.filters then (q.args env deps q.filters).filters.dropLast
      else (q.args env deps q.filters).filters) = q.filters := by
    unfold Query.args buildMetricsQueryArgs Query.injects
    split <;> simp
  have hfold : q.filters.foldl (fun (d : Dict String String) f =>
        d.set f.dimension (",".intercalate f.values)) Dict.empty =
      (q.dimensions.rows.filter fun entry => entry.2.isFilter).foldl
        (fun d entry => d.set entry.1 (",".intercalate entry.2.values)) Dict.empty := by
    rw [Query.filters, foldl_map]
  unfold described
  rw [hfilters]
  dsimp only
  rw [hfold]
  rfl

theorem bucket_of_samePeriod {q q' : Query} {rows : List Row} (h : SamePeriod q q' rows) {row : Row}
    (hrow : row ∈ rows) : q.bucket env row = q'.bucket env row := by
  obtain ⟨hgrain, htz, hbounds⟩ := h
  have hdate : q.bucketDate row = q'.bucketDate row := by
    rw [Query.bucketDate, Query.bucketDate, hgrain]
  unfold Query.bucket
  rw [← hdate, htz, hgrain]
  obtain ⟨hstart, hend⟩ | ⟨hne, hdated⟩ := hbounds
  · rw [hstart, hend]
  · have hsome : (q.bucketDate row).isSome = true := by
      rw [Query.bucketDate, if_neg hne]
      exact hdated row hrow
    obtain ⟨date, hdate⟩ := isSome_iff_exists.mp hsome
    rw [hdate]

theorem metricId_of_args {q q' : Query} {filters filters' : List Filter}
    (h : q'.args env deps filters' = q.args env deps filters) : q'.metricId = q.metricId := by
  simpa [Query.args, buildMetricsQueryArgs] using congrArg MetricsArgs.measures h

theorem evidence_dimensions {q : Query} {args : MetricsArgs} {answer : Answer} {row : Row} {value : Json}
    {evidence : EvidenceArtifact} (h : q.evidence env deps args answer row value = some evidence) :
    evidence.dimensions = q.rowDimensions env row := by
  unfold Query.evidence at h
  obtain ⟨number, -, h⟩ := bind_eq_some_iff.mp h
  obtain ⟨bounds, -, h⟩ := bind_eq_some_iff.mp h
  dsimp only at h
  split at h
  · exact Option.some.inj h ▸ rfl
  · cases h

theorem evidence_of_samePeriod {q q' : Query} {answer : Answer} (hgrain : SamePeriod q q' answer.rows)
    (hargs : q'.args env deps q'.filters = q.args env deps q.filters)
    (hinjects : q'.injects env deps q'.filters = q.injects env deps q.filters) {row : Row}
    (hrow : row ∈ answer.rows) {value : Json} {evidence : EvidenceArtifact} {args : MetricsArgs}
    (h : q'.evidence env deps args answer row value = some evidence) :
    ∃ fresh, q.evidence env deps args answer row value = some fresh ∧
      evidence.metricId = fresh.metricId ∧ evidence.dimensions = fresh.dimensions ∧
      evidence.periodStart = fresh.periodStart ∧ evidence.periodEnd = fresh.periodEnd := by
  have hmetric := metricId_of_args hargs
  have hdimensions : q'.rowDimensions env row = q.rowDimensions env row := by
    rw [rowDimensions_described env deps, rowDimensions_described env deps q, hargs, hinjects]
  unfold Query.evidence at h ⊢
  obtain ⟨number, hnumber, h⟩ := bind_eq_some_iff.mp h
  obtain ⟨⟨start, stop⟩, hbucket, h⟩ := bind_eq_some_iff.mp h
  rw [hnumber, bucket_of_samePeriod hgrain hrow, hbucket, hgrain.1]
  dsimp only [bind_some] at h ⊢
  split at h
  next hmem =>
    obtain rfl := Option.some.inj h
    rw [if_pos hmem]
    exact ⟨_, rfl, hmetric, hdimensions, rfl, rfl⟩
  next hmem => cases h

end Dimensions

section Writing
variable {env : Environment} {deps : SelericDeps}

def Wrote (env : Environment) (deps : SelericDeps) (q : Query) (args : MetricsArgs) (answer : Answer)
    (m : Mission) (id : String) (row : Row) : Prop :=
  ∃ artifact evidence value, m.artifacts.get? id = some artifact ∧ artifact.payload = .evidence evidence ∧
    measured q.metricId row = some value ∧ q.evidence env deps args answer row value = some evidence

theorem Wrote.effects {q : Query} {args : MetricsArgs} {answer : Answer} {m m' : Mission} {id : String}
    {row : Row} (h : Wrote env deps q args answer m id row) (heffects : Effects env m m') :
    Wrote env deps q args answer m' id row := by
  obtain ⟨artifact, evidence, value, hstored, hrest⟩ := h
  exact ⟨artifact, evidence, value, heffects.artifacts hstored, hrest⟩

theorem writeRow_wrote {q : Query} {args : MetricsArgs} {answer : Answer} {row : Row} {m m' : Mission}
    {written : Option Written} (h : writeRow env deps q args answer row m = (some written, m')) :
    (measured q.metricId row = none ∧ written = none) ∨
      ∃ w, written = some w ∧ (measured q.metricId row).isSome = true ∧
        Wrote env deps q args answer m' w.id row := by
  unfold writeRow at h
  split at h
  next hnone =>
    obtain ⟨hw, -⟩ := Prod.mk.inj h
    exact Or.inl ⟨hnone, (Option.some.inj hw).symm⟩
  next value hvalue =>
    split at h
    · cases (Prod.mk.inj h).1
    next evidence hevidence =>
      dsimp only at h
      split at h
      · cases (Prod.mk.inj h).1
      next m'' hput =>
        obtain ⟨hw, rfl⟩ := Prod.mk.inj h
        obtain ⟨-, rfl⟩ := Mission.put_cases hput
        refine Or.inr ⟨_, (Option.some.inj hw).symm, by simp [hvalue], ?_⟩
        exact ⟨_, evidence, value, Table.get?_put_self _ _, rfl, hvalue, hevidence⟩

theorem writeRows_wrote {q : Query} {args : MetricsArgs} {answer : Answer} (rows : List Row) :
    ∀ {m m' : Mission} {series : List Written},
      writeRows env deps q args answer rows m = (some series, m') →
        List.Forall₂ (Wrote env deps q args answer m') (series.map Written.id) (valuedRows q.metricId rows) := by
  induction rows with
  | nil =>
    intro m m' series h
    obtain ⟨hs, -⟩ := Prod.mk.inj h
    obtain rfl := Option.some.inj hs
    exact .nil
  | cons row rows ih =>
    intro m m' series h
    rw [writeRows] at h
    split at h
    · cases (Prod.mk.inj h).1
    next written m₁ hrow =>
      have hrest := writeRows_effects env deps q args answer rows m₁
      cases hrows : writeRows env deps q args answer rows m₁ with
      | mk rest m₂ =>
        rw [hrows] at h hrest
        obtain ⟨hs, rfl⟩ := Prod.mk.inj h
        obtain ⟨others, rfl, rfl⟩ := map_eq_some_iff.mp hs
        have hothers := ih hrows
        obtain ⟨hnone, rfl⟩ | ⟨w, rfl, hsome, hw⟩ := writeRow_wrote hrow
        · rw [valuedRows, filter_cons_of_neg (by simp [hnone])]
          exact hothers
        · rw [valuedRows, filter_cons_of_pos (by simpa using hsome)]
          exact .cons (hw.effects hrest) hothers

theorem writeEvidence_wrote {q : Query} {args : MetricsArgs} {answer : Answer} {m m' : Mission}
    {result : ToolResult} (h : writeEvidence env deps q args answer m = (some result, m'))
    (hsuccess : result.success = true) :
    List.Forall₂ (Wrote env deps q args answer m') result.artifactIds (valuedRows q.metricId answer.rows) := by
  unfold writeEvidence at h
  split at h
  · cases (Prod.mk.inj h).1
  · obtain ⟨hr, -⟩ := Prod.mk.inj h
    obtain rfl := Option.some.inj hr
    cases hsuccess
  next series m₁ _ hrows =>
    obtain ⟨hr, rfl⟩ := Prod.mk.inj h
    obtain rfl := Option.some.inj hr
    exact writeRows_wrote answer.rows hrows

end Writing

section Runs
variable {env : Environment} {deps : SelericDeps}

theorem append_ne_empty {text : String} (h : text ≠ "") (rest : String) : text ++ rest ≠ "" := by
  intro he
  rw [← String.toList_inj, String.toList_append] at he
  exact h (String.toList_inj.mp (append_eq_nil_iff.mp he).1)

theorem exhausted_error (reason : String) : (exhausted reason).error ≠ "" := by
  unfold exhausted
  simp only [String.append_assoc]
  exact append_ne_empty (by decide) _

theorem cachedMetricsQuery_stored (env : Environment) (m : Mission) (args : MetricsArgs)
    (h : (cachedMetricsQuery env m args).1.error = "") :
    (cachedMetricsQuery env m args).2.queries.get? args = some (cachedMetricsQuery env m args).1 := by
  obtain ⟨answer, hstored, he⟩ | ⟨-, ⟨-, counts, he⟩ | ⟨-, reason, counts, he⟩⟩ :=
    cachedMetricsQuery_cases env m args
  · rwa [he]
  · rw [he]
    exact Dict.get?_set_self _ _ _
  · rw [he] at h
    exact absurd h (exhausted_error reason)

theorem fetch_of_not_fallsBack {q : Query} {m : Mission} (h : ¬ FallsBack env deps q m) :
    fetch env deps q m =
      ({ filters := q.filters, args := q.args env deps q.filters
         answer := (cachedMetricsQuery env m (q.args env deps q.filters)).1 },
        (cachedMetricsQuery env m (q.args env deps q.filters)).2) := by
  have hkept : unknownBrandError env (cachedMetricsQuery env m (q.args env deps q.filters)).1.error = true →
      q.filters.filter (fun f => !namesBrand env f) = q.filters := by
    intro herror
    refine filter_eq_self.mpr fun f hf => ?_
    cases hbrand : namesBrand env f with
    | false => rfl
    | true => exact absurd ⟨herror, List.any_eq_true.mpr ⟨f, hf, hbrand⟩⟩ h
  unfold fetch
  dsimp only
  generalize cachedMetricsQuery env m (q.args env deps q.filters) = first at hkept ⊢
  cases herror : unknownBrandError env first.1.error with
  | false => rfl
  | true => simp [hkept herror]

/-- How a call can end: without artifacts, with those of the cached result, or with new ones. -/
def Outcome (env : Environment) (deps : SelericDeps) (q : Query) (fetched : Fetched) (m : Mission)
    (out : ToolOutcome × Mission) : Prop :=
  ((∀ result, out.1 = .returned result → result.success = false) ∧
    ∃ m', Effects env m m' ∧ (out.2 = m' ∨ ∃ result, result.success = false ∧
      out.2 = { m' with results := m'.results.set fetched.args result })) ∨
  fetched.answer.error = "" ∧
    ((∃ prior counts, m.results.get? fetched.args = some prior ∧ prior.success = true ∧
        out = (.returned (alreadyFetched prior), { m with callCounts := counts })) ∨
      ∃ result m', writeEvidence env deps q fetched.args fetched.answer m = (some result, m') ∧
        result.success = true ∧
        out = (.returned result, { m' with results := m'.results.set fetched.args result }))

theorem errorResult_success (env : Environment) (q : Query) (error : String) :
    (errorResult env q error).success = false := by
  unfold errorResult fetchFailure mcpErrorResult
  dsimp only
  repeat' split
  all_goals rfl

/-- How a call with rows can end: without artifacts, with those of the cached result, or with
new ones. -/
theorem cachedResult_cases (q : Query) (fetched : Fetched) (hok : fetched.answer.error = "") (m : Mission) :
    Outcome env deps q fetched m (cachedResult env deps q fetched.args fetched.answer m) := by
  have heffects := writeEvidence_effects env deps q fetched.args fetched.answer m
  unfold cachedResult
  cases hstored : m.results.get? fetched.args with
  | some prior =>
    dsimp only
    split
    next hsuccess => exact Or.inr ⟨hok, Or.inl ⟨prior, _, hstored, hsuccess, rfl⟩⟩
    next hfailed =>
      refine Or.inl ⟨?_, m, .refl, Or.inl rfl⟩
      rintro result ⟨⟩
      simpa using hfailed
  | none =>
    cases hwritten : writeEvidence env deps q fetched.args fetched.answer m with
    | mk result m' =>
      rw [hwritten] at heffects
      cases result with
      | none =>
        refine Or.inl ⟨?_, m', heffects, Or.inl rfl⟩
        rintro result ⟨⟩
      | some result =>
        cases hsuccess : result.success with
        | true => exact Or.inr ⟨hok, Or.inr ⟨result, m', hwritten, hsuccess, rfl⟩⟩
        | false =>
          refine Or.inl ⟨?_, m', heffects, Or.inr ⟨result, hsuccess, rfl⟩⟩
          rintro result ⟨⟩
          exact hsuccess

theorem respond_cases (env : Environment) (deps : SelericDeps) (q : Query) (fetched : Fetched) (m : Mission) :
    Outcome env deps q fetched m (respond env deps q fetched m) := by
  unfold respond
  dsimp only
  split
  next herror =>
    refine Or.inl ⟨?_, m, .refl, Or.inl rfl⟩
    rintro result ⟨⟩
    exact errorResult_success env q _
  next herror =>
    split
    · refine Or.inl ⟨?_, m, .refl, Or.inl rfl⟩
      rintro result ⟨⟩
      rfl
    · split
      · refine Or.inl ⟨?_, _, noRowsResult_effects env q fetched.filters m, Or.inl rfl⟩
        rintro result ⟨⟩
        rfl
      · exact cachedResult_cases q fetched (by simpa using herror) m

/-- Every result that is kept for reuse was returned by a call of the mission, whose artifacts are
about the rows cached for the same arguments. -/
def Remembered (env : Environment) (deps : SelericDeps) (s : MissionRun) : Prop :=
  ∀ args result, s.mission.results.get? args = some result → result.success = true →
    ∃ entry ∈ s.past, entry.2.success = true ∧ entry.1.args env deps entry.1.filters = args ∧
      ∃ answer, s.mission.queries.get? args = some answer ∧
        List.Forall₂ (Wrote env deps entry.1 args answer s.mission) result.artifactIds
          (valuedRows entry.1.metricId answer.rows)

theorem Remembered.effects {s : MissionRun} (h : Remembered env deps s) {m : Mission}
    (heffects : Effects env s.mission m) (more : List (Query × ToolResult)) :
    Remembered env deps { mission := m, past := s.past ++ more } := by
  intro args result hstored hsuccess
  have hbefore : s.mission.results.get? args = some result := heffects.results ▸ hstored
  obtain ⟨entry, hentry, hpast, hargs, answer, hanswer, hwrote⟩ := h args result hbefore hsuccess
  refine ⟨entry, mem_append_left _ hentry, hpast, hargs, answer, heffects.queries hanswer, ?_⟩
  exact hwrote.imp fun _ _ hw => hw.effects heffects

/-- A result under other arguments, or a failure, adds nothing to keep. -/
theorem Remembered.set {s : MissionRun} (h : Remembered env deps s) (args : MetricsArgs) (result : ToolResult)
    (hnew : result.success = true → ∃ entry ∈ s.past, entry.2.success = true ∧
      entry.1.args env deps entry.1.filters = args ∧ ∃ answer, s.mission.queries.get? args = some answer ∧
        List.Forall₂ (Wrote env deps entry.1 args answer s.mission) result.artifactIds
          (valuedRows entry.1.metricId answer.rows)) :
    Remembered env deps { s with mission := { s.mission with results := s.mission.results.set args result } } := by
  intro args' result' hstored hsuccess
  by_cases hargs : args = args'
  · subst hargs
    obtain rfl : result = result' := by simpa using hstored
    exact hnew hsuccess
  · exact h args' result' ((Dict.get?_set_of_ne _ _ hargs).symm.trans hstored) hsuccess

theorem prepare_of_mem_answered {call : QueryMetricsArgs} {outcome : ToolOutcome} {entry : Query × ToolResult}
    (h : entry ∈ answered env deps call outcome) : prepare env deps call = .ok entry.1 := by
  unfold answered at h
  split at h
  next q result hprepare =>
    obtain rfl := mem_singleton.mp h
    exact hprepare
  · cases h

theorem queryMetrics_outcome {call : QueryMetricsArgs} {q : Query} {m : Mission}
    (hprepare : prepare env deps call = .ok q) (hplain : ¬ FallsBack env deps q m) :
    Outcome env deps q { filters := q.filters, args := q.args env deps q.filters
                         answer := (cachedMetricsQuery env m (q.args env deps q.filters)).1 }
      (cachedMetricsQuery env m (q.args env deps q.filters)).2 (queryMetrics env deps call m) := by
  have hfetch := fetch_of_not_fallsBack hplain
  unfold queryMetrics
  rw [hprepare]
  dsimp only
  rw [hfetch]
  exact respond_cases env deps q _ _

theorem queryMetrics_step (s : MissionRun) (call : QueryMetricsArgs) :
    s.step env deps (.queryMetrics call) =
      { mission := (queryMetrics env deps call s.mission).2
        past := s.past ++ answered env deps call (queryMetrics env deps call s.mission).1 } := rfl

theorem answered_of_prepare {call : QueryMetricsArgs} {q : Query} (h : prepare env deps call = .ok q)
    (result : ToolResult) : answered env deps call (.returned result) = [(q, result)] := by
  unfold answered
  rw [h]

theorem Remembered.queryMetrics {s : MissionRun} (h : Remembered env deps s) {call : QueryMetricsArgs}
    (hplain : Plain env deps s (.queryMetrics call)) :
    Remembered env deps (s.step env deps (.queryMetrics call)) := by
  cases hprepare : prepare env deps call with
  | error message => simpa [MissionRun.step, Agent.queryMetrics, answered, hprepare] using h
  | ok q =>
    have hstored := cachedMetricsQuery_stored env s.mission (q.args env deps q.filters)
    have hquery := Effects.query env s.mission (q.args env deps q.filters)
    have hcases := queryMetrics_outcome hprepare (hplain q hprepare).1
    rw [queryMetrics_step]
    obtain ⟨-, m', hm', he | ⟨failed, hfailed, he⟩⟩ | ⟨hok, ⟨prior, counts, -, -, he⟩ |
      ⟨result, m', hwritten, hsuccess, he⟩⟩ := hcases
    · rw [he]
      exact h.effects (hquery.trans hm') _
    · rw [he]
      exact (h.effects (hquery.trans hm') _).set _ failed fun hsuccess => absurd hsuccess (by simp [hfailed])
    · rw [he]
      exact h.effects (hquery.trans (.single (.count _ counts))) _
    · have hm' := writeEvidence_effects env deps q (q.args env deps q.filters)
        (cachedMetricsQuery env s.mission (q.args env deps q.filters)).1
        (cachedMetricsQuery env s.mission (q.args env deps q.filters)).2
      rw [hwritten] at hm'
      rw [he, answered_of_prepare hprepare]
      refine (h.effects (hquery.trans hm') [(q, result)]).set _ result fun _ => ?_
      exact ⟨(q, result), by simp, hsuccess, rfl, _, hm'.queries (hstored hok),
        writeEvidence_wrote hwritten hsuccess⟩

theorem forall₂_mem_right {α β : Type} {R : α → β → Prop} {as : List α} {bs : List β}
    (h : List.Forall₂ R as bs) : List.Forall₂ (fun a b => b ∈ bs ∧ R a b) as bs := by
  have hflip : List.Forall₂ (flip R) bs as := List.Forall₂.flip h
  exact ((forall₂_and_left bs as).mpr ⟨fun b hb => hb, hflip⟩).flip

/-- The artifacts of a query that did not fall back report its rows, whether they are new or were
written by an earlier call. -/
theorem Remembered.truthful {s : MissionRun} (h : Remembered env deps s) {a : ToolStep}
    (hplain : Plain env deps s a) : Truthful env deps s a := by
  cases a with
  | drilldown => trivial
  | put => trivial
  | queryMetrics call =>
    intro q result hprepare hresult hsuccess
    have hstored := cachedMetricsQuery_stored env s.mission (q.args env deps q.filters)
    have hquery := Effects.query env s.mission (q.args env deps q.filters)
    have hcases := queryMetrics_outcome hprepare (hplain q hprepare).1
    rw [queryMetrics_step, fetch_of_not_fallsBack (hplain q hprepare).1]
    obtain ⟨hfailure, -⟩ | ⟨hok, ⟨prior, counts, hprior, hpriorSuccess, he⟩ |
      ⟨written, m', hwritten, -, he⟩⟩ := hcases
    · exact absurd hsuccess (by simp [hfailure result hresult])
    · rw [he] at hresult ⊢
      obtain rfl := ToolOutcome.returned.inj hresult
      obtain ⟨entry, hentry, hpast, hargs, answer, hanswer, hwrote⟩ :=
        h.effects hquery [] _ prior hprior hpriorSuccess
      obtain ⟨hinjects, hperiod⟩ := (hplain q hprepare).2 entry (by simpa using hentry) hpast hargs
      obtain rfl : (cachedMetricsQuery env s.mission (q.args env deps q.filters)).1 = answer :=
        Option.some.inj ((hstored hok).symm.trans hanswer)
      have hmetric : entry.1.metricId = q.metricId := metricId_of_args hargs
      rw [hmetric] at hwrote
      refine (forall₂_mem_right hwrote).imp fun id row ⟨hrow, hw⟩ => ?_
      obtain ⟨artifact, evidence, value, hartifact, hpayload, hvalue, hevidence⟩ := hw
      obtain ⟨fresh, hfresh, hsame, hdims, hperiods⟩ :=
        evidence_of_samePeriod hperiod hargs hinjects (mem_of_mem_filter hrow) hevidence
      refine ⟨artifact, evidence, value, fresh, hartifact, hpayload, hmetric ▸ hvalue, hfresh, ?_, hsame, hdims,
        hperiods⟩
      rw [hdims, evidence_dimensions hfresh]
      exact rowDimensions_described env deps q row
    · rw [he] at hresult ⊢
      obtain rfl := ToolOutcome.returned.inj hresult
      refine (writeEvidence_wrote hwritten hsuccess).imp fun id row hwrote => ?_
      obtain ⟨artifact, evidence, value, hartifact, hpayload, hvalue, hevidence⟩ := hwrote
      refine ⟨artifact, evidence, value, evidence, hartifact, hpayload, hvalue, hevidence, ?_, rfl, rfl, rfl, rfl⟩
      rw [evidence_dimensions hevidence]
      exact rowDimensions_described env deps q row

theorem Remembered.step {s : MissionRun} (h : Remembered env deps s) {a : ToolStep}
    (hplain : Plain env deps s a) : Remembered env deps (s.step env deps a) := by
  cases a with
  | queryMetrics call => exact h.queryMetrics hplain
  | drilldown call =>
    simpa [MissionRun.step] using h.effects (drilldown_effects env deps call s.mission) []
  | put artifact =>
    cases hput : s.mission.put artifact with
    | none => simpa [MissionRun.step, hput] using h
    | some m =>
      simpa [MissionRun.step, hput] using h.effects (.single (.put artifact hput)) []

/-- In a run of a mission whose calls neither fall back nor disagree, all evidence is truthful. -/
theorem evidence_truthful (m : Mission) {calls : List ToolStep}
    (h : Machine.Along (fun s a => some (MissionRun.step env deps s a)) (Plain env deps)
      { mission := { m with results := .empty } } calls) :
    Machine.Along (fun s a => some (MissionRun.step env deps s a)) (Truthful env deps)
      { mission := { m with results := .empty } } calls := by
  have hstart : Remembered env deps { mission := { m with results := .empty } } := by
    intro args result hstored
    simp at hstored
  refine Machine.along_of_invariant ?_ (fun s a hs hplain => hs.truthful hplain) calls _ hstart h
  rintro s a s' hs hplain hstep
  obtain rfl := Option.some.inj hstep
  exact hs.step hplain

end Runs

/-! A brand that the gateway does not know: the rows are those of the default brand. -/

def plainText : Json → String
  | .str s => s
  | .num n => toString n
  | _ => "None"

def oneBrand : Environment where
  lower s := s
  text := plainText
  float := some
  fromisoformat _ := none
  closeMatches _ _ := []
  uuid _ := .nil
  metricsQuery _ args :=
    if args.filters = [defaultBrand] then .answer { rows := [Dict.empty.set "sales" (.num 5)] }
    else .answer { error := "unknown brand" }
  metricsDrilldown _ _ := .null

def today : Datetime where
  date := ⟨2026, 9, 26, Date.year_2026_range, Date.september_range, by decide⟩

def oneBrandDeps : SelericDeps where
  missionId := "m"
  workspaceId := "w"
  asOf := today

def freshMission : Mission where
  budget := { limits := {} }

def salesOf (brand : String) : QueryMetricsArgs where
  metricId := "sales"
  dimensions := some (some (Dict.empty.set "brand_id" (.text brand)))

def sales : QueryMetricsArgs where
  metricId := "sales"

theorem sales_truthful :
    Machine.Along (fun s a => some (MissionRun.step oneBrand oneBrandDeps s a)) (Truthful oneBrand oneBrandDeps)
      { mission := { freshMission with results := .empty } } [.queryMetrics sales, .queryMetrics sales] := by
  have hplain : ∀ q, prepare oneBrand oneBrandDeps sales = .ok q → ∀ m, ¬ FallsBack oneBrand oneBrandDeps q m := by
    rintro q ⟨⟩ m ⟨-, hbrand⟩
    cases hbrand
  refine evidence_truthful freshMission ⟨fun q hq => ⟨hplain q hq _, fun entry hentry => nomatch hentry⟩, ?_⟩
  intro s hs
  obtain rfl := Option.some.inj hs
  refine ⟨fun q hq => ⟨hplain q hq _, fun entry hentry _ _ => ?_⟩, fun s _ => trivial⟩
  rw [queryMetrics_step, nil_append] at hentry
  dsimp only at hentry
  obtain rfl := Except.ok.inj (hq.symm.trans (prepare_of_mem_answered hentry))
  exact ⟨rfl, rfl, rfl, Or.inl ⟨rfl, rfl⟩⟩

def ToolOutcome.ids : ToolOutcome → List String
  | .returned result => result.artifactIds
  | _ => []

def Artifact.dimensions (artifact : Artifact) : List (String × String) :=
  match artifact.payload with
  | .evidence evidence => evidence.dimensions.rows
  | .other _ => []

def acm3 : Query where
  metricId := "sales"
  dimensions := Dict.empty.set "brand_id" (.text "acm3")
  grain := "none"
  periodStart := today
  periodEnd := today
  order := none
  limit := none

theorem prepare_acm3 : prepare oneBrand oneBrandDeps (salesOf "acm3") = .ok acm3 := by
  have hrows : (sanitizeDimensions oneBrand (salesOf "acm3").dimensions.join).rows = acm3.dimensions.rows := by
    decide +kernel
  unfold prepare
  rw [Table.ext hrows]
  rfl

theorem described_acm3 (row : Row) : (described oneBrand (fetch oneBrand oneBrandDeps acm3 freshMission).1.args
    (acm3.injects oneBrand oneBrandDeps (fetch oneBrand oneBrandDeps acm3 freshMission).1.filters) row).rows =
      [] := by
  have hdimensions : (fetch oneBrand oneBrandDeps acm3 freshMission).1.args.dimensions = [] := by decide +kernel
  have hfilters : (fetch oneBrand oneBrandDeps acm3 freshMission).1.args.filters = [defaultBrand] := by
    decide +kernel
  have hinjects : acm3.injects oneBrand oneBrandDeps
      (fetch oneBrand oneBrandDeps acm3 freshMission).1.filters = true := by decide +kernel
  unfold described
  rw [hdimensions, hfilters, hinjects]
  rfl

theorem unknownBrand_not_truthful :
    ¬ Truthful oneBrand oneBrandDeps { mission := freshMission } (.queryMetrics (salesOf "acm3")) := by
  intro h
  have hids : (queryMetrics oneBrand oneBrandDeps (salesOf "acm3") freshMission).1.ids =
      ["artifact_00000000000000000000000000000000"] := by decide +kernel
  have hwritten : ∀ a ∈ (queryMetrics oneBrand oneBrandDeps (salesOf "acm3") freshMission).2.artifacts.rows,
      a.dimensions = [("brand_id", "acm3")] := by decide +kernel
  cases hresult : (queryMetrics oneBrand oneBrandDeps (salesOf "acm3") freshMission).1 with
  | modelRetry message => simp [hresult, ToolOutcome.ids] at hids
  | raised => simp [hresult, ToolOutcome.ids] at hids
  | returned result =>
    have hids : result.artifactIds = ["artifact_00000000000000000000000000000000"] := by
      simpa [hresult, ToolOutcome.ids] using hids
    have hsuccess : result.success = true := by
      by_contra hfailed
      have hnone := (result.envelope (by simpa using hfailed)).2
      rw [hids] at hnone
      cases hnone
    have hreports := h acm3 result prepare_acm3 hresult hsuccess
    rw [hids] at hreports
    obtain ⟨row, rows, ⟨artifact, evidence, value, fresh, hartifact, hpayload, -, -, hdescribed, -⟩, -, -⟩ :=
      forall₂_cons_left_iff.mp hreports
    have hdimensions : evidence.dimensions.rows = [("brand_id", "acm3")] := by
      simpa [Artifact.dimensions, hpayload] using hwritten artifact (Table.mem_of_get? hartifact)
    rw [hdescribed, described_acm3] at hdimensions
    cases hdimensions

end SelericSwarm.Agent
