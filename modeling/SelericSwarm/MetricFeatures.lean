import Mathlib.Algebra.Order.Field.Rat
import SelericSwarm.Grouping
import SelericSwarm.Means

/-! The features of a metric's series. -/
namespace SelericSwarm.BusinessState
open Keyed Option

/-! `domain/models.py`. -/

inductive QualityFlag where
  | missingData | stale | late | sparseHistory | catalogueMiss | bindingUnsupportedDim | partialSeries | mcpError
  | insufficientEvidence | crossAxisRatioUnsupported
  deriving DecidableEq, Repr

structure SeriesPoint where
  ts : String
  value : Option ℚ
  deriving DecidableEq

structure FeatureValue where
  value : Option ℚ
  window : Option String := none
  strategyVersion : Option String := none
  deriving DecidableEq

/-! `features.py`. -/

def strategyVersion : String := "v1"

/-- One row of a profile's `features`. -/
structure FeatureSpec where
  id : String
  strategy : String
  minPoints : Int := 1
  window : Option String := none
  deriving DecidableEq

abbrev Features := Dict String FeatureValue

section Features
-- Python's `int` of a text, and `statistics.pstdev`
variable (int : String → Option Int) (pstdev : List ℚ → ℚ)

/-- `values[-n:]` -/
def lastOf (n : Int) (values : List ℚ) : List ℚ :=
  if 0 < n then values.drop (values.length - n.toNat) else values.drop (-n).toNat

/-- `_window_values`; no answer where the window is not a number of days. -/
def windowValues (values : List ℚ) (window : Option String) : Option (List ℚ) :=
  match window with
  | none => some values
  | some window =>
    if window.endsWith "d" then (int (window.dropEnd 1).toString).map fun n => lastOf n values else some values

def flagged (flag : QualityFlag) (flags : List QualityFlag) : List QualityFlag :=
  if flag ∈ flags then flags else flags ++ [flag]

def deltaPct (values : List ℚ) : Option ℚ :=
  match values.reverse with
  | last :: previous :: _ => if previous = 0 then none else some ((last - previous) / previous * 100)
  | _ => none

/-- One turn of the loop; no answer where it raises. -/
def featureStep (values : List ℚ) (found : Features × List QualityFlag) (spec : FeatureSpec) :
    Option (Features × List QualityFlag) :=
  let sparse := (found.1, flagged .sparseHistory found.2)
  let set (value : ℚ) (window : Option String) :=
    (found.1.set spec.id { value := some value, window, strategyVersion := some strategyVersion }, found.2)
  if spec.strategy = "freshness_age" then some found
  else if (values.length : Int) < spec.minPoints then some sparse
  else
    match spec.strategy with
    | "current_value" => values.getLast?.map fun v => set v none
    | "period_delta_pct" => some ((deltaPct values).elim sparse fun pct => set pct spec.window)
    | "rolling_mean" =>
      (windowValues int values spec.window).bind fun ws => if ws = [] then none else some (set (Means.mean ws) spec.window)
    | "rolling_std" =>
      (windowValues int values spec.window).bind fun ws => if ws = [] then none else some (set (pstdev ws) spec.window)
    | _ => some found

def seriesValues (series : List SeriesPoint) : List ℚ := series.filterMap SeriesPoint.value

def computeFeatures (series : List SeriesPoint) (specs : List FeatureSpec) : Option (Features × List QualityFlag) :=
  specs.foldlM (featureStep int pstdev (seriesValues series)) (.empty, [])

end Features

/-! What a feature says. -/

section Spec
variable {int : String → Option Int} {pstdev : List ℚ → ℚ} {values : List ℚ} {k : String}

theorem featureStep_delta {found found' : Features × List QualityFlag} {spec : FeatureSpec}
    (h : featureStep int pstdev values found spec = some found') :
    (spec.id ≠ k → found'.1.get? k = found.1.get? k) ∧
      (spec.strategy = "period_delta_pct" → ∀ fv, found'.1.get? spec.id = some fv →
        found.1.get? spec.id = some fv ∨ fv.value = deltaPct values) := by
  unfold featureStep at h
  dsimp only at h
  split at h
  · cases h
    exact ⟨fun _ => rfl, fun _ fv hfv => Or.inl hfv⟩
  · split at h
    · cases h
      exact ⟨fun _ => rfl, fun _ fv hfv => Or.inl hfv⟩
    · split at h
      · rename_i hstrategy
        obtain ⟨v, -, rfl⟩ := map_eq_some_iff.mp h
        refine ⟨fun hne => Dict.get?_set_of_ne _ _ hne, fun hdelta => ?_⟩
        rw [hdelta] at hstrategy
        exact absurd hstrategy (by decide)
      · cases hpct : deltaPct values with
        | none =>
          rw [hpct] at h
          cases h
          exact ⟨fun _ => rfl, fun _ fv hfv => Or.inl hfv⟩
        | some pct =>
          rw [hpct] at h
          cases h
          refine ⟨fun hne => Dict.get?_set_of_ne _ _ hne, fun _ fv hfv => Or.inr ?_⟩
          rw [elim_some, Dict.get?_set_self] at hfv
          rw [← Option.some.inj hfv]
      · rename_i hstrategy
        obtain ⟨ws, -, hws⟩ := bind_eq_some_iff.mp h
        split at hws
        · cases hws
        · cases hws
          refine ⟨fun hne => Dict.get?_set_of_ne _ _ hne, fun hdelta => ?_⟩
          rw [hdelta] at hstrategy
          exact absurd hstrategy (by decide)
      · rename_i hstrategy
        obtain ⟨ws, -, hws⟩ := bind_eq_some_iff.mp h
        split at hws
        · cases hws
        · cases hws
          refine ⟨fun hne => Dict.get?_set_of_ne _ _ hne, fun hdelta => ?_⟩
          rw [hdelta] at hstrategy
          exact absurd hstrategy (by decide)
      · cases h
        exact ⟨fun _ => rfl, fun _ fv hfv => Or.inl hfv⟩

theorem foldlM_delta {specs : List FeatureSpec} (hspecs : ∀ s ∈ specs, s.id = k → s.strategy = "period_delta_pct") :
    ∀ {found found' : Features × List QualityFlag},
      specs.foldlM (featureStep int pstdev values) found = some found' → ∀ fv, found'.1.get? k = some fv →
        found.1.get? k = some fv ∨ fv.value = deltaPct values := by
  induction specs with
  | nil =>
    intro found found' h fv hfv
    cases h
    exact Or.inl hfv
  | cons spec specs ih =>
    intro found found' h fv hfv
    obtain ⟨next, hstep, hrest⟩ := bind_eq_some_iff.mp h
    obtain ⟨hother, hown⟩ := featureStep_delta (k := k) hstep
    obtain hnext | hvalue := ih (fun s hs => hspecs s (List.mem_cons_of_mem spec hs)) hrest fv hfv
    · by_cases hid : spec.id = k
      · subst hid
        exact hown (hspecs spec List.mem_cons_self rfl) fv hnext
      · exact Or.inl (hother hid ▸ hnext)
    · exact Or.inr hvalue

theorem computeFeatures_delta {series : List SeriesPoint} {specs : List FeatureSpec} {features : Features}
    {flags : List QualityFlag} {fv : FeatureValue} (h : computeFeatures int pstdev series specs = some (features, flags))
    (hspecs : ∀ s ∈ specs, s.id = k → s.strategy = "period_delta_pct") (hfv : features.get? k = some fv) :
    fv.value = deltaPct (seriesValues series) := by
  obtain hempty | hvalue := foldlM_delta hspecs h fv hfv
  · cases hempty
  · exact hvalue

end Spec
end SelericSwarm.BusinessState
