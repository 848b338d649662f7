import Mathlib.Logic.Function.Basic

/-! The execution limits of a mission and the tracker that counts against them. -/
namespace SelericSwarm.Agent

inductive Counter where
  | toolCalls | cubeQueries | causalQueries | predictionCalls | validationRevisions
  deriving DecidableEq, Repr

def Counter.key : Counter → String
  | .toolCalls => "tool_calls"
  | .cubeQueries => "cube_queries"
  | .causalQueries => "causal_queries"
  | .predictionCalls => "prediction_calls"
  | .validationRevisions => "validation_revisions"

structure ExecutionLimits where
  maxToolCalls : Int := 160
  maxCubeQueries : Int := 100
  maxCausalQueries : Int := 40
  maxPredictionCalls : Int := 40
  maxValidationRevisions : Int := 1
  agentRetries : Int := 2

/-- `getattr(limits, f"max_{key}")`. -/
def ExecutionLimits.bound (limits : ExecutionLimits) : Counter → Int
  | .toolCalls => limits.maxToolCalls
  | .cubeQueries => limits.maxCubeQueries
  | .causalQueries => limits.maxCausalQueries
  | .predictionCalls => limits.maxPredictionCalls
  | .validationRevisions => limits.maxValidationRevisions

structure BudgetVerdict where
  ok : Bool
  errorCode : Option String := none
  reason : Option String := none
  exhaustedKey : Option String := none

structure ExecutionBudgetTracker where
  limits : ExecutionLimits
  used : Counter → Nat := fun _ => 0

def ExecutionBudgetTracker.consume (tracker : ExecutionBudgetTracker) (counter : Counter) (amount : Nat) :
    BudgetVerdict × ExecutionBudgetTracker :=
  if tracker.used counter + amount > tracker.limits.bound counter then
    ({ ok := false
       errorCode := some "EXECUTION_LIMIT_EXCEEDED"
       reason := some (counter.key ++ " would exceed its limit (" ++
         toString (tracker.limits.bound counter) ++ ")")
       exhaustedKey := some counter.key }, tracker)
  else
    ({ ok := true },
      { tracker with used := Function.update tracker.used counter (tracker.used counter + amount) })

theorem consume_used {tracker : ExecutionBudgetTracker} {counter : Counter} {amount : Nat}
    (h : (tracker.consume counter amount).1.ok = true) :
    (tracker.used counter + amount : Int) ≤ tracker.limits.bound counter ∧
      (tracker.consume counter amount).2.used counter = tracker.used counter + amount ∧
      (tracker.consume counter amount).2.limits = tracker.limits := by
  unfold ExecutionBudgetTracker.consume at h ⊢
  split at h
  · cases h
  next hle =>
    rw [if_neg hle]
    exact ⟨by omega, by simp, rfl⟩

end SelericSwarm.Agent
