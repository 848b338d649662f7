import SelericSwarm.RepeatGuard
import SelericSwarm.EvidenceTruth

/-! When a failure that is marked as retryable reaches the gateway again: the cache settles a
metrics query for the rest of the mission, and only a drilldown request that raised stays open. -/
open List

namespace SelericSwarm.Agent
open Keyed

/-- No further request for the query: it has an answer, or the budget is used up. -/
def Settled (m : Mission) (args : MetricsArgs) : Prop :=
  (m.queries.get? args).isSome = true ∨ (m.budget.consume .cubeQueries 1).1.ok = false

/-- Every stored drilldown was returned by the gateway. -/
def OnlyKept (m : Mission) : Prop := ∀ args reply, m.drilldowns.get? args = some reply → reply.kept = true

/-- What tools add to a mission: further requests, none of them for a settled query. -/
structure Grows (m m' : Mission) (more : List GatewayCall) : Prop where
  calls : m'.calls = m.calls ++ more
  queries : ∀ args answer, m.queries.get? args = some answer → m'.queries.get? args = some answer
  settled : ∀ args, Settled m args → Settled m' args ∧ GatewayCall.metricsQuery args ∉ more
  drilldowns : ∀ args, GatewayCall.metricsDrilldown args ∈ more ∨
    m'.drilldowns.get? args = m.drilldowns.get? args
  kept : OnlyKept m → OnlyKept m'

namespace Grows

theorem refl (m : Mission) : Grows m m [] where
  calls := (append_nil _).symm
  queries _ _ h := h
  settled _ h := ⟨h, not_mem_nil⟩
  drilldowns _ := Or.inr rfl
  kept h := h

theorem trans {m₁ m₂ m₃ : Mission} {more more' : List GatewayCall} (h : Grows m₁ m₂ more)
    (h' : Grows m₂ m₃ more') : Grows m₁ m₃ (more ++ more') where
  calls := by rw [h'.calls, h.calls, append_assoc]
  queries args answer hs := h'.queries args answer (h.queries args answer hs)
  settled args hs := by
    obtain ⟨hs, hnot⟩ := h.settled args hs
    obtain ⟨hs, hnot'⟩ := h'.settled args hs
    exact ⟨hs, fun he => (mem_append.mp he).elim hnot hnot'⟩
  drilldowns args := by
    obtain hmem | hsame := h.drilldowns args
    · exact Or.inl (mem_append_left _ hmem)
    · obtain hmem | hsame' := h'.drilldowns args
      · exact Or.inl (mem_append_right _ hmem)
      · exact Or.inr (hsame'.trans hsame)
  kept hk := h'.kept (h.kept hk)

/-- A change to neither the caches of requests nor the budget. -/
theorem same {m m' : Mission} (hq : m'.queries = m.queries) (hd : m'.drilldowns = m.drilldowns)
    (hb : m'.budget = m.budget) (hc : m'.calls = m.calls) : Grows m m' [] where
  calls := by rw [hc, append_nil]
  queries args answer h := hq ▸ h
  settled args h := ⟨by rwa [Settled, hq, hb], not_mem_nil⟩
  drilldowns args := Or.inr (by rw [hd])
  kept h := by rwa [OnlyKept, hd]

theorem query (env : Environment) (m : Mission) (args : MetricsArgs) :
    ∃ more, Grows m (cachedMetricsQuery env m args).2 more := by
  obtain ⟨answer, -, he⟩ | ⟨hnone, ⟨hok, counts, he⟩ | ⟨-, reason, counts, he⟩⟩ :=
    cachedMetricsQuery_cases env m args
  · exact ⟨[], he ▸ refl m⟩
  · have hne : ∀ args', (m.queries.get? args').isSome = true → args ≠ args' := by
      rintro args' hstored rfl
      simp [hnone] at hstored
    refine ⟨[.metricsQuery args], he ▸ ⟨rfl, ?_, ?_, fun _ => Or.inr rfl, fun hk => hk⟩⟩
    · intro args' answer hstored
      exact (Dict.get?_set_of_ne _ _ (hne args' (by simp [hstored]))).trans hstored
    · rintro args' (hstored | hbudget)
      · refine ⟨Or.inl ?_, fun hmem => ?_⟩
        · rwa [Dict.get?_set_of_ne _ _ (hne args' hstored)]
        · exact hne args' hstored (GatewayCall.metricsQuery.inj (mem_singleton.mp hmem)).symm
      · simp [hok] at hbudget
  · exact ⟨[], he ▸ same rfl rfl rfl rfl⟩

theorem drilldown (env : Environment) (m : Mission) (args : DrilldownArgs) :
    ∃ more, Grows m (cachedDrilldown env m args).2 more := by
  obtain ⟨reply, -, he⟩ | ⟨hnone, reply, -, he⟩ := cachedDrilldown_cases env m args
  · exact ⟨[], he ▸ refl m⟩
  · refine ⟨[.metricsDrilldown args], he ▸ ⟨rfl, fun _ _ hs => hs, ?_, ?_, ?_⟩⟩
    · exact fun args' hs => ⟨hs, by simp⟩
    · intro args'
      by_cases hargs : args = args'
      · exact Or.inl (by simp [hargs])
      · refine Or.inr ?_
        dsimp only
        split
        · exact Dict.get?_set_of_ne _ _ hargs
        · rfl
    · intro hk args' reply' hstored
      dsimp only at hstored
      split at hstored
      next hkept =>
        by_cases hargs : args = args'
        · subst hargs
          obtain rfl : reply = reply' := by simpa using hstored
          exact hkept
        · exact hk args' reply' ((Dict.get?_set_of_ne _ _ hargs).symm.trans hstored)
      · exact hk args' reply' hstored

end Grows

theorem Effect.grows {env : Environment} {m m' : Mission} (h : Effect env m m') :
    ∃ more, Grows m m' more := by
  cases h with
  | query args => exact Grows.query env m args
  | drilldown args => exact Grows.drilldown env m args
  | put artifact hput =>
    obtain ⟨-, rfl⟩ := Mission.put_cases hput
    exact ⟨[], Grows.same rfl rfl rfl rfl⟩
  | count counts => exact ⟨[], Grows.same rfl rfl rfl rfl⟩

theorem Effects.grows {env : Environment} {m m' : Mission} (h : Effects env m m') :
    ∃ more, Grows m m' more := by
  induction h with
  | refl => exact ⟨[], Grows.refl m⟩
  | tail _ heffect ih =>
    obtain ⟨more, hmore⟩ := ih
    obtain ⟨more', hmore'⟩ := heffect.grows
    exact ⟨more ++ more', hmore.trans hmore'⟩

section Tools
variable (env : Environment) (deps : SelericDeps)

theorem Grows.results {m m' : Mission} {more : List GatewayCall} (h : Grows m m' more)
    (results : Dict MetricsArgs ToolResult) : Grows m { m' with results } more := by
  have hsame : Grows m' { m' with results } [] := .same rfl rfl rfl rfl
  simpa using h.trans hsame

theorem respond_grows (q : Query) (fetched : Fetched) (m : Mission) :
    ∃ more, Grows m (respond env deps q fetched m).2 more := by
  obtain ⟨-, m', hm', he | ⟨failed, -, he⟩⟩ | ⟨-, ⟨prior, counts, -, -, he⟩ | ⟨result, m', hwritten, -, he⟩⟩ :=
    respond_cases env deps q fetched m
  · exact he ▸ hm'.grows
  · obtain ⟨more, hmore⟩ := hm'.grows
    exact ⟨more, he ▸ hmore.results _⟩
  · exact ⟨[], he ▸ Grows.same rfl rfl rfl rfl⟩
  · have hm' := writeEvidence_effects env deps q fetched.args fetched.answer m
    rw [hwritten] at hm'
    obtain ⟨more, hmore⟩ := hm'.grows
    exact ⟨more, he ▸ hmore.results _⟩

theorem queryMetrics_grows (call : QueryMetricsArgs) (m : Mission) :
    ∃ more, Grows m (queryMetrics env deps call m).2 more := by
  unfold queryMetrics
  cases prepare env deps call with
  | error message => exact ⟨[], Grows.refl m⟩
  | ok q =>
    obtain ⟨more, hmore⟩ := (fetch_effects env deps q m).grows
    obtain ⟨more', hmore'⟩ := respond_grows env deps q (fetch env deps q m).1 (fetch env deps q m).2
    exact ⟨more ++ more', hmore.trans hmore'⟩

theorem run_grows (call : ToolCall) (m : Mission) : ∃ more, Grows m (call.run env deps m).2 more := by
  cases call with
  | queryMetrics call => exact queryMetrics_grows env deps call m
  | drilldown call => exact (drilldown_effects env deps call m).grows
  | other tool args execution artifacts =>
    refine ⟨[], ?_⟩
    unfold ToolCall.run
    dsimp only
    induction artifacts generalizing m with
    | nil => exact Grows.refl m
    | cons artifact artifacts ih =>
      rw [foldl_cons]
      cases hput : m.put artifact with
      | none => exact ih m
      | some m' =>
        obtain ⟨-, rfl⟩ := Mission.put_cases hput
        have hsame : Grows m { m with artifacts := m.artifacts.put artifact, issued := m.issued + 1 } [] :=
          .same rfl rfl rfl rfl
        exact hsame.trans (ih _)

theorem call_grows (call : ToolCall) (g : GuardedMission) :
    ∃ more, Grows g.mission (g.call env deps call).2.mission more := by
  unfold GuardedMission.call
  dsimp only
  split
  · have hrun := run_grows env deps call g.mission
    split
    all_goals exact hrun
  · dsimp only
    split
    all_goals exact ⟨[], Grows.same rfl rfl rfl rfl⟩

theorem calls_grows (calls : List ToolCall) : ∀ g : GuardedMission,
    ∃ more, Grows g.mission (g.calls env deps calls).mission more := by
  induction calls with
  | nil => exact fun g => ⟨[], Grows.refl g.mission⟩
  | cons call calls ih =>
    intro g
    obtain ⟨more, hmore⟩ := call_grows env deps call g
    obtain ⟨more', hmore'⟩ := ih (g.call env deps call).2
    exact ⟨more ++ more', hmore.trans hmore'⟩

/-! Failures that may be tried again. -/

/-- A retryable failure comes from the handler, never from a replay. -/
theorem call_of_retryable {g : GuardedMission} {call : ToolCall} {result : ToolResult}
    (h : (g.call env deps call).1 = .returned (.result result)) (hfailed : result.success = false)
    (hretry : result.retryable = true) :
    (call.run env deps g.mission).1 = .returned (.result result) ∧
      (g.call env deps call).2.mission = (call.run env deps g.mission).2 ∧
      (g.call env deps call).2.results = g.results.set call.key (.result result) := by
  unfold GuardedMission.call at h ⊢
  dsimp only at h ⊢
  split at h
  next hrerun =>
    rw [if_pos hrerun]
    cases hrun : (call.run env deps g.mission).1 with
    | returned value =>
      rw [hrun] at h
      obtain rfl : value = .result result := by simpa using h
      exact ⟨rfl, rfl, rfl⟩
    | modelRetry message =>
      rw [hrun] at h
      cases h
    | raised =>
      rw [hrun] at h
      cases h
  next hreplay =>
    exfalso
    refine hreplay ?_
    cases hprior : g.results.get? call.key with
    | none => rfl
    | some prior =>
      rw [hprior] at h
      cases prior with
      | null => rfl
      | value value => cases h
      | result prior =>
        obtain rfl : _ = result := by simpa [replay] using h
        exact Bool.and_eq_true_iff.mpr ⟨by simpa using hfailed, hretry⟩

theorem cachedMetricsQuery_settled (m : Mission) (args : MetricsArgs) :
    Settled (cachedMetricsQuery env m args).2 args := by
  obtain ⟨answer, hstored, he⟩ | ⟨-, ⟨-, counts, he⟩ | ⟨hbudget, reason, counts, he⟩⟩ :=
    cachedMetricsQuery_cases env m args
  · exact he ▸ Or.inl (by simp [hstored])
  · exact he ▸ Or.inl (by simp)
  · exact he ▸ Or.inr hbudget

theorem fetch_settled (q : Query) (m : Mission) :
    Settled (fetch env deps q m).2 (fetch env deps q m).1.args := by
  unfold fetch
  dsimp only
  split
  all_goals exact cachedMetricsQuery_settled env _ _

theorem queryMetrics_settled {call : QueryMetricsArgs} {q : Query} (h : prepare env deps call = .ok q)
    (m : Mission) : Settled (queryMetrics env deps call m).2 (fetch env deps q m).1.args := by
  unfold queryMetrics
  rw [h]
  obtain ⟨more, hmore⟩ := respond_grows env deps q (fetch env deps q m).1 (fetch env deps q m).2
  exact (hmore.settled _ (fetch_settled env deps q m)).1

theorem drilldown_settled (call : DrilldownCall) (m : Mission) :
    Settled (drilldown env deps call m).2 (call.parentArgs env) := by
  obtain ⟨more, hmore⟩ := (drilldown_effects_parent env deps call m).grows
  exact (hmore.settled _ (cachedMetricsQuery_settled env m _)).1

end Tools

section Open
variable (env : Environment) (deps : SelericDeps)

def ParentAnswered (m : Mission) (call : DrilldownCall) : Prop :=
  (cachedMetricsQuery env m (call.parentArgs env)).1.error = "" ∧
    (cachedMetricsQuery env m (call.parentArgs env)).1.queryId ≠ ""

instance (m : Mission) (call : DrilldownCall) : Decidable (ParentAnswered env m call) :=
  inferInstanceAs (Decidable (_ ∧ _))

variable {result : ToolResult}

theorem respond_not_retryable (call : DrilldownCall) (parent answer : Answer) (m : Mission)
    (h : (call.respond env deps parent answer m).1 = .returned result) : result.retryable = false := by
  unfold DrilldownCall.respond at h
  dsimp only at h
  split at h
  · exact ToolOutcome.returned.inj h ▸ rfl
  · split at h
    · cases h
    · exact ToolOutcome.returned.inj h ▸ rfl
    · exact ToolOutcome.returned.inj h ▸ rfl

theorem drilldown_of_answered {call : DrilldownCall} {m : Mission} (h : ParentAnswered env m call) :
    drilldown env deps call m =
      match resolveDrilldownParentId (cachedMetricsQuery env m (call.parentArgs env)).1 with
      | none => (.returned (severalViews call.metricId), (cachedMetricsQuery env m (call.parentArgs env)).2)
      | some parentQueryId =>
        call.drill env deps (cachedMetricsQuery env m (call.parentArgs env)).1 parentQueryId
          (cachedMetricsQuery env m (call.parentArgs env)).2 := by
  unfold drilldown
  dsimp only
  refine (if_neg (by simpa [ParentAnswered] using h)).trans ?_
  cases resolveDrilldownParentId (cachedMetricsQuery env m (call.parentArgs env)).1 with
  | none => rfl
  | some parentQueryId => rfl

theorem drill_of_retryable {call : DrilldownCall} {parent : Answer} {parentQueryId : String} {m : Mission}
    (h : (call.drill env deps parent parentQueryId m).1 = .returned result) (hretry : result.retryable = true) :
    (cachedDrilldown env m { parentQueryId, targetDimensions := [call.dimension] }).1.kept = false ∧
      (call.drill env deps parent parentQueryId m).2 =
        (cachedDrilldown env m { parentQueryId, targetDimensions := [call.dimension] }).2 := by
  unfold DrilldownCall.drill at h ⊢
  dsimp only at h ⊢
  cases hreply : (cachedDrilldown env m { parentQueryId, targetDimensions := [call.dimension] }).1 with
  | raised type message unavailable => exact ⟨rfl, rfl⟩
  | null =>
    rw [hreply] at h
    simp [respond_not_retryable env deps call _ _ _ h] at hretry
  | answer answer =>
    rw [hreply] at h
    simp [respond_not_retryable env deps call _ _ _ h] at hretry
  | other truthy =>
    rw [hreply] at h
    cases truthy with
    | true => cases h
    | false => simp [respond_not_retryable env deps call _ _ _ h] at hretry

theorem drilldown_of_retryable {call : DrilldownCall} {m : Mission} (hparent : ParentAnswered env m call)
    (h : (drilldown env deps call m).1 = .returned result) (hretry : result.retryable = true) : ∃ parentQueryId,
      resolveDrilldownParentId (cachedMetricsQuery env m (call.parentArgs env)).1 = some parentQueryId ∧
      (cachedDrilldown env (cachedMetricsQuery env m (call.parentArgs env)).2
        { parentQueryId, targetDimensions := [call.dimension] }).1.kept = false ∧
      (drilldown env deps call m).2 = (cachedDrilldown env (cachedMetricsQuery env m (call.parentArgs env)).2
        { parentQueryId, targetDimensions := [call.dimension] }).2 := by
  rw [drilldown_of_answered env deps hparent] at h ⊢
  cases hresolve : resolveDrilldownParentId (cachedMetricsQuery env m (call.parentArgs env)).1 with
  | none =>
    rw [hresolve] at h
    obtain rfl := ToolOutcome.returned.inj h
    cases hretry
  | some parentQueryId =>
    rw [hresolve] at h
    exact ⟨parentQueryId, rfl, drill_of_retryable env deps h hretry⟩

/-- A retryable failure of a drilldown is open to be called again: its parent is answered, its
own request is not stored. -/
structure Open (call : DrilldownCall) (parent : Answer) (parentQueryId : String) (g : GuardedMission) :
    Prop where
  parent : g.mission.queries.get? (call.parentArgs env) = some parent
  drilldown : g.mission.drilldowns.get? { parentQueryId, targetDimensions := [call.dimension] } = none
  rerun : rerun (g.results.get? (.drilldown call)) = true

variable {env deps} {call : DrilldownCall} {parent : Answer} {parentQueryId : String} {g : GuardedMission}

theorem execution_returned {outcome : ToolOutcome} (h : outcome.execution = .returned (.result result)) :
    outcome = .returned result := by
  cases outcome with
  | returned other => exact congrArg _ (ToolReturn.result.inj (Execution.returned.inj h))
  | modelRetry message => cases h
  | raised => cases h

theorem Open.of_retryable (hkept : OnlyKept g.mission)
    (h : (g.call env deps (.drilldown call)).1 = .returned (.result result)) (hfailed : result.success = false)
    (hretry : result.retryable = true) (hparent : ParentAnswered env g.mission call) : ∃ parentQueryId,
      resolveDrilldownParentId (cachedMetricsQuery env g.mission (call.parentArgs env)).1 = some parentQueryId ∧
      Open env call (cachedMetricsQuery env g.mission (call.parentArgs env)).1 parentQueryId
        (g.call env deps (.drilldown call)).2 := by
  obtain ⟨hrun, hmission, hresults⟩ := call_of_retryable env deps h hfailed hretry
  obtain ⟨parentQueryId, hresolve, hraised, hafter⟩ :=
    drilldown_of_retryable env deps hparent (execution_returned hrun) hretry
  have hmission : (g.call env deps (.drilldown call)).2.mission =
      (cachedDrilldown env (cachedMetricsQuery env g.mission (call.parentArgs env)).2
        { parentQueryId, targetDimensions := [call.dimension] }).2 := hmission.trans hafter
  obtain ⟨more, hmore⟩ := Grows.query env g.mission (call.parentArgs env)
  have hstored := cachedMetricsQuery_stored env g.mission (call.parentArgs env) hparent.1
  refine ⟨parentQueryId, hresolve, ?_, ?_, ?_⟩
  · rw [hmission]
    exact (Effect.drilldown _ _).queries hstored
  · rw [hmission]
    obtain ⟨reply, hreply, he⟩ | ⟨hnone, reply, -, he⟩ := cachedDrilldown_cases env
      (cachedMetricsQuery env g.mission (call.parentArgs env)).2
      { parentQueryId, targetDimensions := [call.dimension] }
    · rw [he] at hraised
      simp [hmore.kept hkept _ reply hreply] at hraised
    · rw [he] at hraised ⊢
      simpa [hraised] using hnone
  · rw [hresults]
    simp [ToolCall.key, Agent.rerun, hfailed, hretry]

theorem cachedMetricsQuery_of_stored (env : Environment) {m : Mission} {args : MetricsArgs} {answer : Answer}
    (h : m.queries.get? args = some answer) : cachedMetricsQuery env m args = (answer, m) := by
  unfold cachedMetricsQuery
  rw [h]

theorem cachedDrilldown_sends {m : Mission} {args : DrilldownArgs} (h : m.drilldowns.get? args = none) :
    (cachedDrilldown env m args).2.calls = m.calls ++ [.metricsDrilldown args] := by
  unfold cachedDrilldown
  rw [h]

/-- Called again, it sends its own request. -/
theorem Open.retry (deps : SelericDeps) (h : Open env call parent parentQueryId g) (hok : parent.error = "" ∧ parent.queryId ≠ "")
    (hresolve : resolveDrilldownParentId parent = some parentQueryId) :
    ∃ more, Grows g.mission (g.call env deps (.drilldown call)).2.mission more ∧
      GatewayCall.metricsDrilldown { parentQueryId, targetDimensions := [call.dimension] } ∈ more := by
  have hquery := cachedMetricsQuery_of_stored env h.parent
  have hparent : ParentAnswered env g.mission call := by rwa [ParentAnswered, hquery]
  have heffects := call.drill_effects env deps parent parentQueryId g.mission
  obtain ⟨sent, hsent⟩ := Grows.drilldown env g.mission
    { parentQueryId, targetDimensions := [call.dimension] }
  obtain ⟨more, hmore⟩ := heffects.grows
  have hmem : sent = [.metricsDrilldown { parentQueryId, targetDimensions := [call.dimension] }] :=
    append_cancel_left (hsent.calls.symm.trans (cachedDrilldown_sends h.drilldown))
  have hmission : (g.call env deps (.drilldown call)).2.mission = (Agent.drilldown env deps call g.mission).2 := by
    unfold GuardedMission.call
    dsimp only
    rw [if_pos (show Agent.rerun (g.results.get? (ToolCall.drilldown call).key) = true from h.rerun)]
    split
    all_goals rfl
  rw [hmission, drilldown_of_answered env deps hparent, hquery, hresolve]
  exact ⟨sent ++ more, hsent.trans hmore, mem_append_left _ (by simp [hmem])⟩

theorem Open.of_other {other : ToolCall} (h : Open env call parent parentQueryId g)
    (hne : other.key ≠ .drilldown call) {more : List GatewayCall}
    (hgrows : Grows g.mission (g.call env deps other).2.mission more) :
    GatewayCall.metricsDrilldown { parentQueryId, targetDimensions := [call.dimension] } ∈ more ∨
      Open env call parent parentQueryId (g.call env deps other).2 := by
  obtain hmem | hsame := hgrows.drilldowns { parentQueryId, targetDimensions := [call.dimension] }
  · exact Or.inl hmem
  · refine Or.inr ⟨hgrows.queries _ _ h.parent, hsame.trans h.drilldown, ?_⟩
    have hresults : (g.call env deps other).2.results.get? (.drilldown call) = g.results.get? (.drilldown call) := by
      unfold GuardedMission.call
      dsimp only
      split
      · split
        · exact Dict.get?_set_of_ne _ _ hne
        all_goals rfl
      · rfl
    rw [hresults]
    exact h.rerun

theorem eq_of_key {other : ToolCall} (h : other.key = .drilldown call) : other = .drilldown call := by
  cases other with
  | drilldown other => exact congrArg _ (CallKey.drilldown.inj h)
  | queryMetrics other => cases h
  | other tool args execution artifacts => cases h

/-- It stays open until its request has been sent again. -/
theorem Open.calls (hok : parent.error = "" ∧ parent.queryId ≠ "")
    (hresolve : resolveDrilldownParentId parent = some parentQueryId) (between : List ToolCall) :
    ∀ {g : GuardedMission}, Open env call parent parentQueryId g →
      ∃ more, Grows g.mission (g.calls env deps between).mission more ∧
        (GatewayCall.metricsDrilldown { parentQueryId, targetDimensions := [call.dimension] } ∈ more ∨
          Open env call parent parentQueryId (g.calls env deps between)) := by
  induction between with
  | nil => exact fun {g} h => ⟨[], Grows.refl g.mission, Or.inr h⟩
  | cons other between ih =>
    intro g h
    by_cases hkey : other.key = .drilldown call
    · obtain rfl := eq_of_key hkey
      obtain ⟨sent, hsent, hmem⟩ := h.retry deps hok hresolve
      obtain ⟨more, hmore⟩ := calls_grows env deps between (g.call env deps (.drilldown call)).2
      exact ⟨sent ++ more, hsent.trans hmore, Or.inl (mem_append_left _ hmem)⟩
    · obtain ⟨sent, hsent⟩ := call_grows env deps other g
      obtain hmem | hopen := h.of_other hkey hsent
      · obtain ⟨more, hmore⟩ := calls_grows env deps between (g.call env deps other).2
        exact ⟨sent ++ more, hsent.trans hmore, Or.inl (mem_append_left _ hmem)⟩
      · obtain ⟨more, hmore, hend⟩ := ih hopen
        exact ⟨sent ++ more, hsent.trans hmore, hend.imp (mem_append_right _) id⟩

end Open

section Retry
variable (env : Environment) (deps : SelericDeps)

/-- The request that a failing call made last. -/
def ToolCall.request (m : Mission) : ToolCall → Option GatewayCall
  | .queryMetrics call =>
    (prepare env deps call).toOption.map fun q => .metricsQuery (fetch env deps q m).1.args
  | .drilldown call =>
    if ParentAnswered env m call then
      (resolveDrilldownParentId (cachedMetricsQuery env m (call.parentArgs env)).1).map fun parentQueryId =>
        .metricsDrilldown { parentQueryId, targetDimensions := [call.dimension] }
    else some (.metricsQuery (call.parentArgs env))
  | .other _ _ _ _ => none

/-- A retryable failure that is called again reaches the gateway again exactly where it is the
drilldown request itself that failed. -/
theorem retry_reaches_gateway_iff (budget : ExecutionBudgetTracker) (before between : List ToolCall)
    (call : ToolCall) {result : ToolResult}
    (h : ((GuardedMission.calls env deps { mission := { budget } } before).call env deps call).1 =
      .returned (.result result))
    (hfailed : result.success = false) (hretry : result.retryable = true) :
    let g := GuardedMission.calls env deps { mission := { budget } } before
    let failed := (g.call env deps call).2
    let last := ((failed.calls env deps between).call env deps call).2
    (∃ request, call.request env deps g.mission = some request ∧
        request ∈ last.mission.calls.drop failed.mission.calls.length) ↔
      ∃ d, call = .drilldown d ∧ ParentAnswered env g.mission d := by
  intro g failed last
  obtain ⟨-, hmission, -⟩ := call_of_retryable env deps h hfailed hretry
  constructor
  · obtain ⟨more, hmore⟩ := calls_grows env deps between failed
    obtain ⟨again, hagain⟩ := call_grows env deps call (failed.calls env deps between)
    have hlast : Grows failed.mission last.mission (more ++ again) := hmore.trans hagain
    rintro ⟨request, hrequest, hmem⟩
    rw [hlast.calls, drop_left] at hmem
    cases call with
    | other => cases hrequest
    | queryMetrics call =>
      -- a query that has failed is settled
      cases hprepare : prepare env deps call with
      | error message => simp [ToolCall.request, hprepare, Except.toOption] at hrequest
      | ok q =>
        obtain rfl : _ = request := by simpa [ToolCall.request, hprepare, Except.toOption] using hrequest
        have hsettled : Settled failed.mission (fetch env deps q g.mission).1.args :=
          hmission ▸ queryMetrics_settled env deps hprepare g.mission
        exact absurd hmem (hlast.settled _ hsettled).2
    | drilldown d =>
      by_cases hparent : ParentAnswered env g.mission d
      · exact ⟨d, rfl, hparent⟩
      · rw [ToolCall.request, if_neg hparent] at hrequest
        obtain rfl := Option.some.inj hrequest
        have hsettled : Settled failed.mission (d.parentArgs env) :=
          hmission ▸ drilldown_settled env deps d g.mission
        exact absurd hmem (hlast.settled _ hsettled).2
  · rintro ⟨d, rfl, hparent⟩
    obtain ⟨earlier, hearlier⟩ := calls_grows env deps before { mission := { budget } }
    have hkept : OnlyKept g.mission := hearlier.kept fun args reply hstored => by simp at hstored
    obtain ⟨parentQueryId, hresolve, hopen⟩ := Open.of_retryable hkept h hfailed hretry hparent
    obtain ⟨more, hmore, hsent | hopen⟩ := hopen.calls hparent hresolve between
    all_goals
      refine ⟨_, by rw [ToolCall.request, if_pos hparent, hresolve]; rfl, ?_⟩
    · obtain ⟨again, hagain⟩ := call_grows env deps (.drilldown d) (failed.calls env deps between)
      rw [(hmore.trans hagain).calls, drop_left]
      exact mem_append_left _ hsent
    · obtain ⟨again, hagain, hsent⟩ := hopen.retry deps hparent hresolve
      rw [(hmore.trans hagain).calls, drop_left]
      exact mem_append_right _ hsent

end Retry

/-! A gateway that times out at first, and one whose drilldowns time out. -/

def slowQueries : Environment :=
  { oneBrand with
    metricsQuery := fun calls args =>
      if calls = [] then .raised "TimeoutError" "timed out" false else oneBrand.metricsQuery calls args }

def slowDrilldowns : Environment :=
  { oneBrand with
    metricsQuery := fun _ _ => .answer { queryId := "q1" }
    metricsDrilldown := fun _ _ => .raised "TimeoutError" "timed out" false }

def byChannel : DrilldownCall where
  metricId := "sales"
  dimension := "channel"
  periodStart := today
  periodEnd := today

def Execution.mayRetry : Execution → Bool
  | .returned (.result result) => !result.success && result.retryable
  | _ => false

theorem Execution.of_mayRetry {execution : Execution} (h : execution.mayRetry = true) : ∃ result,
    execution = .returned (.result result) ∧ result.success = false ∧ result.retryable = true := by
  cases execution with
  | modelRetry message => cases h
  | raised => cases h
  | returned value =>
    cases value with
    | null => cases h
    | value value => cases h
    | result result =>
      obtain ⟨hfailed, hretry⟩ := Bool.and_eq_true_iff.mp h
      exact ⟨result, rfl, by simpa using hfailed, hretry⟩

theorem byChannel_retried :
    let g : GuardedMission := { mission := freshMission }
    let failed := (g.call slowDrilldowns oneBrandDeps (.drilldown byChannel)).2
    let last := (failed.call slowDrilldowns oneBrandDeps (.drilldown byChannel)).2
    ∃ request, (ToolCall.drilldown byChannel).request slowDrilldowns oneBrandDeps g.mission = some request ∧
      request ∈ last.mission.calls.drop failed.mission.calls.length := by
  intro g failed last
  have hretry : (g.call slowDrilldowns oneBrandDeps (.drilldown byChannel)).1.mayRetry = true := by
    decide
  obtain ⟨result, hresult, hfailed, hretry⟩ := Execution.of_mayRetry hretry
  exact (retry_reaches_gateway_iff slowDrilldowns oneBrandDeps { limits := {} } [] [] (.drilldown byChannel)
    hresult hfailed hretry).mpr ⟨byChannel, rfl, by decide⟩

theorem transient_not_retried :
    let g : GuardedMission := { mission := freshMission }
    let failed := (g.call slowQueries oneBrandDeps (.queryMetrics sales)).2
    (∃ result, (g.call slowQueries oneBrandDeps (.queryMetrics sales)).1 = .returned (.result result) ∧
        result.success = false ∧ result.retryable = true) ∧
      failed.mission.calls.length = 1 ∧
      (failed.call slowQueries oneBrandDeps (.queryMetrics sales)).2.mission.calls = failed.mission.calls := by
  intro g failed
  have hretry : (g.call slowQueries oneBrandDeps (.queryMetrics sales)).1.mayRetry = true := by
    decide
  exact ⟨Execution.of_mayRetry hretry, by decide, by decide⟩

end SelericSwarm.Agent
