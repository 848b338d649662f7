import Mathlib
import SelericSwarm.LoopBounds

/-! The tool calls and requests of a mission, shared out to the runs of its agent. -/
namespace SelericSwarm.Agent
open Keyed

def toolBudgetByIntent : List (String × Int) :=
  [("conversation", 1), ("lookup", 64), ("aggregation", 64), ("trend", 64), ("comparison", 80), ("diagnostic", 128),
    ("forecast", 128), ("simulation", 128), ("causal_investigation", 128)]

def toolBudget (intent : Option String) (ceiling : Int) : Int :=
  match intent with
  | none => ceiling
  | some intent => min ceiling ((toolBudgetByIntent.lookup intent).getD ceiling)

/-- The first run and the revisions of it. -/
def Deps.attemptsTotal (deps : Deps) : Int := 1 + max 0 deps.limits.maxValidationRevisions

/-- What `Behaviour.run` gives each run. -/
def Deps.missionBudget (deps : Deps) : UsageLimits := usageLimits deps.limits deps.attemptsTotal

/-- The limits of the runs that a mission has started. -/
def Deps.grants (deps : Deps) (log : List LoopEvent) : List UsageLimits :=
  (log.filter LoopEvent.isRun).map fun _ => deps.missionBudget

/-- What the runs are given adds up to no more than the mission has, and each of them may call a tool. -/
def Deps.Within (deps : Deps) (granted : List UsageLimits) : Prop :=
  (granted.map (·.toolCallsLimit)).sum ≤ deps.limits.maxToolCalls ∧
    (granted.map (·.requestLimit)).sum ≤ deps.limits.maxToolCalls + 32 ∧ ∀ g ∈ granted, 1 ≤ g.toolCallsLimit

/-! Shares that are rounded up. -/

theorem mul_share (total : Int) {n : Int} : n * -(-total / n) = total + -total % n := by
  have h := Int.mul_ediv_add_emod (-total) n
  rw [Int.mul_neg]
  omega

theorem mul_share_le_iff (total : Int) {n : Int} (hn : 0 < n) : n * -(-total / n) ≤ total ↔ n ∣ total := by
  have hnonneg := Int.emod_nonneg (-total) (Int.ne_of_gt hn)
  rw [mul_share, ← Int.dvd_neg, Int.dvd_iff_emod_eq_zero]
  omega

theorem one_le_share {total n : Int} (htotal : 1 ≤ total) (hn : 0 < n) : 1 ≤ -(-total / n) := by
  have h := Int.ediv_lt_of_lt_mul hn (show -total < 0 * n by omega)
  omega

theorem attemptsTotal_pos (deps : Deps) : 0 < deps.attemptsTotal := by
  unfold Deps.attemptsTotal
  omega

section Shares
variable {deps : Deps}

theorem missionBudget_eq (hcap : 1 ≤ deps.limits.maxToolCalls) : deps.missionBudget =
    { requestLimit := -(-(deps.limits.maxToolCalls + 32) / deps.attemptsTotal)
      toolCallsLimit := -(-deps.limits.maxToolCalls / deps.attemptsTotal) } := by
  have hpos := attemptsTotal_pos deps
  rw [Deps.missionBudget, usageLimits, Int.max_eq_right (show 1 ≤ deps.attemptsTotal by omega),
    Int.max_eq_right hcap]

theorem sum_grants (f : UsageLimits → Int) (log : List LoopEvent) :
    ((deps.grants log).map f).sum = log.countP LoopEvent.isRun * f deps.missionBudget := by
  have hsum (n : Nat) (x : Int) : (List.replicate n x).sum = n * x := by
    induction n with
    | zero => simp
    | succ n ih =>
      rw [List.replicate_succ, List.sum_cons, ih, Int.natCast_add, Int.add_mul]
      omega
  rw [Deps.grants, List.map_map, List.countP_eq_length_filter, ← hsum, ← List.map_const']
  rfl

end Shares

/-! An answer that is never accepted uses up all revisions. -/

/-- A validation that asks for a revision. -/
def incomplete : ValidationOutcome where
  ok := false
  reason := some "incomplete"
  verdict := some .revise

def neverDone : Behaviour where
  agent _ _ _ := { ending := .finished indented }
  validate _ _ := some incomplete

section Loop
variable (deps : Deps) (query : String) (streaming : Bool)

theorem attempt_neverDone (n : Nat) (prompt : String) :
    ∃ result events, attempt neverDone deps streaming n prompt = (.validated result incomplete, events) :=
  ⟨_, _, rfl⟩

theorem revise_neverDone (n : Nat) (result : MissionResult) (outcome : ValidationOutcome)
    (tracker : ExecutionBudgetTracker) (hincomplete : outcome = incomplete) :
    tracker.limits.maxValidationRevisions ≤
      (revise neverDone deps query streaming n result outcome tracker).tracker.used .validationRevisions := by
  fun_induction revise neverDone deps query streaming n result outcome tracker with
  | case1 n result outcome tracker hok =>
    subst hincomplete
    cases hok
  | case2 n result outcome tracker hok hrejected =>
    subst hincomplete
    cases hrejected
  | case3 n result outcome tracker hok hrejected hbudget tracker' events log hattempt
  | case4 n result outcome tracker hok hrejected hbudget tracker' events log limited hattempt =>
    obtain ⟨result', events', hvalidated⟩ :=
      attempt_neverDone deps streaming (n + 1) (revisionPrompt query outcome)
    cases hattempt.symm.trans hvalidated
  | case5 n result outcome tracker hok hrejected hbudget tracker' events log result' outcome' rest hattempt ih =>
    obtain ⟨result'', events', hvalidated⟩ :=
      attempt_neverDone deps streaming (n + 1) (revisionPrompt query outcome)
    cases hattempt.symm.trans hvalidated
    have hlimits : tracker'.limits = tracker.limits := (consume_used hbudget).2.2
    rw [← hlimits]
    exact ih rfl
  | case6 n result outcome tracker hok hrejected hbudget =>
    unfold ExecutionBudgetTracker.consume at hbudget
    split at hbudget
    next hgt =>
      simp only [ExecutionLimits.bound] at hgt
      dsimp only
      omega
    next => exact absurd rfl hbudget

theorem runs_neverDone :
    ((runValidatedMission neverDone deps query streaming none).log.countP LoopEvent.isRun : Int) =
      deps.attemptsTotal := by
  obtain ⟨first, later, hlog, hfirst, hlater, hlength, hused⟩ :=
    mission_segments neverDone deps query streaming none
  obtain ⟨result, events, hvalidated⟩ := attempt_neverDone deps streaming 0 query
  have hall : deps.limits.maxValidationRevisions ≤ _ :=
    revise_neverDone deps query streaming 0 result incomplete { limits := deps.limits } rfl
  have htracker : (runValidatedMission neverDone deps query streaming none).tracker =
      (revise neverDone deps query streaming 0 result incomplete { limits := deps.limits }).tracker := by
    unfold runValidatedMission
    rw [hvalidated]
    rfl
  rw [htracker] at hused
  rw [hlog, countP_isRun streaming hfirst hlater, Deps.attemptsTotal]
  dsimp only [Option.getD_none] at hused hlength
  omega

theorem runs_le (b : Behaviour) :
    ((runValidatedMission b deps query streaming none).log.countP LoopEvent.isRun : Int) ≤ deps.attemptsTotal := by
  obtain ⟨first, later, hlog, hfirst, hlater, hlength, -⟩ := mission_segments b deps query streaming none
  rw [hlog, countP_isRun streaming hfirst hlater, Deps.attemptsTotal]
  dsimp only [Option.getD_none] at hlength
  omega

end Loop

/-- The budget is kept to when the runs that there can be share it, and the extra requests, evenly. -/
theorem revisions_within_budget_iff (deps : Deps) (hcap : 1 ≤ deps.limits.maxToolCalls) :
    (∀ (b : Behaviour) (query : String) (streaming : Bool),
      deps.Within (deps.grants (runValidatedMission b deps query streaming none).log)) ↔
      deps.attemptsTotal ∣ deps.limits.maxToolCalls ∧ deps.attemptsTotal ∣ 32 := by
  have hpos := attemptsTotal_pos deps
  have hcalls := one_le_share hcap hpos
  have hrequests := one_le_share (show 1 ≤ deps.limits.maxToolCalls + 32 by omega) hpos
  constructor
  · intro h
    obtain ⟨htools, hmodel, -⟩ := h neverDone "" false
    rw [sum_grants, runs_neverDone, missionBudget_eq hcap] at htools hmodel
    have hdvd := (mul_share_le_iff _ hpos).mp htools
    exact ⟨hdvd, (Int.dvd_add_right hdvd).mp ((mul_share_le_iff _ hpos).mp hmodel)⟩
  · rintro ⟨htools, hextra⟩ b query streaming
    have hruns := runs_le deps query streaming b
    refine ⟨?_, ?_, ?_⟩
    · rw [sum_grants, missionBudget_eq hcap]
      calc _ ≤ deps.attemptsTotal * -(-deps.limits.maxToolCalls / deps.attemptsTotal) :=
            Int.mul_le_mul_of_nonneg_right hruns (by omega)
        _ ≤ _ := (mul_share_le_iff _ hpos).mpr htools
    · rw [sum_grants, missionBudget_eq hcap]
      calc _ ≤ deps.attemptsTotal * -(-(deps.limits.maxToolCalls + 32) / deps.attemptsTotal) :=
            Int.mul_le_mul_of_nonneg_right hruns (by omega)
        _ ≤ _ := (mul_share_le_iff _ hpos).mpr (Int.dvd_add htools hextra)
    · intro g hg
      obtain ⟨e, -, rfl⟩ := List.mem_map.mp hg
      rw [missionBudget_eq hcap]
      exact hcalls

def defaultDeps : Deps where
  missionId := "m"
  asOf := newYear

theorem defaultDeps_within :
    defaultDeps.Within (defaultDeps.grants (runValidatedMission neverDone defaultDeps "sales" true none).log) :=
  (revisions_within_budget_iff defaultDeps (by decide)).mpr (by decide) neverDone "sales" true

/-- A conversation has one tool call, and each of its two runs is given one. -/
def chatDeps : Deps where
  missionId := "m"
  asOf := newYear
  limits := { maxToolCalls := toolBudget (some "conversation") 160 }

theorem chatDeps_exceeds : chatDeps.limits.maxToolCalls = 1 ∧
    ¬∀ (b : Behaviour) (query : String) (streaming : Bool),
      chatDeps.Within (chatDeps.grants (runValidatedMission b chatDeps query streaming none).log) := by
  have hone : chatDeps.limits.maxToolCalls = 1 := by decide
  refine ⟨hone, fun h => ?_⟩
  have htools := (h neverDone "hello" false).1
  rw [sum_grants, runs_neverDone, hone] at htools
  revert htools
  decide

end SelericSwarm.Agent
