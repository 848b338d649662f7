import SelericSwarm.PeriodComparison
import SelericSwarm.RobustScores
import SelericSwarm.StableSorts

/-! The latest point of each series scored against the earlier ones. -/
namespace SelericSwarm.Analytics
open Keyed Detectors StableSorts List

/-- An id with the evidence it stands for. -/
abbrev Reading := String × EvidenceArtifact

def groupBySeries (read : List Reading) : Dict PairKey (List Reading) := Dict.grouped readingKey read

/-- When the period of a reading begins: naive and aware datetimes have no order. -/
def Reading.start (r : Reading) : Bool × Int := Validation.moment r.2.periodStart

def Sortable (series : List Reading) : Prop := ∀ r ∈ series, ∀ r' ∈ series, r.start.1 = r'.start.1

instance (series : List Reading) : Decidable (Sortable series) := inferInstanceAs (Decidable (∀ r ∈ series, _))

/-- `sorted(series, key=lambda pair: pair[1].period_start)`, where there is an order. -/
def byStart (series : List Reading) : List Reading := sortBy (fun r => r.start.2) series

/-- The readings with a value, in that order. -/
def usable (series : List Reading) : List Reading := (byStart series).filter fun r => r.2.value.isSome

def valuesOf (series : List Reading) : List ℚ := series.filterMap fun r => r.2.value

def directionText : Direction → String
  | .up => "up"
  | .down => "down"
  | .flat => "flat"

def anomalyMetrics (result : RobustZScoreResult) : Dict String ℚ :=
  let metrics := ((((Dict.empty.set "z_score" result.score).set "observed" result.observed).set "expected"
    result.expected).set "expected_low" result.expectedRange.1).set "expected_high" result.expectedRange.2
  match result.deviationPct with
  | some deviation => metrics.set "deviation_pct" deviation
  | none => metrics

def anomalyFinding (key : PairKey) (history : List Reading) (observed : Reading) (result : RobustZScoreResult) :
    Finding where
  findingType := "anomaly"
  statement := key.1 ++ sliceText key.2 ++ " was " ++ Decimals.general 4 result.observed ++ " on " ++
    observed.2.periodStart.date.isoformat ++ ", " ++ directionText result.direction ++ " vs an expected " ++
    Decimals.general 4 result.expected ++ " (z=" ++ Decimals.fixed 2 result.score ++ " over " ++
    toString history.length ++ " " ++ observed.2.grain ++ "-grain baseline point(s))"
  evidenceIds := (history ++ [observed]).map Prod.fst
  metrics := anomalyMetrics result
  cited := by simp

/-- What becomes of a series. -/
inductive Judgement where
  | incomparable
  | thin (warning : String)
  | quiet
  | anomaly (f : Finding)

def thinWarning (metricId : String) (points : Nat) : String :=
  metricId ++ ": " ++ toString points ++ " usable point(s), need >=2 (1 observation + >=1 baseline)"

/-- `*history, (_, observed) = usable` -/
def judge (key : PairKey) (series : List Reading) : Judgement :=
  if Sortable series then
    match (usable series).reverse with
    | observed :: next :: earlier =>
      match robustZscore (valuesOf (next :: earlier).reverse) (observed.2.value.getD 0) with
      | some result =>
        if result.isAnomaly then .anomaly (anomalyFinding key (next :: earlier).reverse observed result) else .quiet
      | none => .quiet
    | few => .thin (thinWarning key.1 few.length)
  else .incomparable

/-- The exceptions: datetimes that do not compare, and an id that is taken. -/
inductive Raised where
  | typeError
  | valueError
  deriving DecidableEq

section Detection
variable (py : Runtime) (deps : Agent.SelericDeps)

/-- The loop over the series: the ids of the findings and the warnings. -/
def detectEach : List (PairKey × List Reading) → Desk → Except Raised (List String × List String) × Desk
  | [], desk => (.ok ([], []), desk)
  | (key, series) :: rest, desk =>
    match judge key series with
    | .incomparable => (.error .typeError, desk)
    | .thin warning =>
      match detectEach rest desk with
      | (.ok (ids, warnings), desk) => (.ok (ids, warning :: warnings), desk)
      | (.error raised, desk) => (.error raised, desk)
    | .quiet => detectEach rest desk
    | .anomaly f =>
      match writeFinding py deps desk f with
      | (none, desk) => (.error .valueError, desk)
      | (some id, desk) =>
        match detectEach rest desk with
        | (.ok (ids, warnings), desk) => (.ok (id :: ids, warnings), desk)
        | (.error raised, desk) => (.error raised, desk)

def zscoreMethods : List String := ["mad", "robust_zscore"]

def detectAnomalies (desk : Desk) (evidenceIds : List String) (method : String := "robust_zscore") :
    Except Raised ToolResult × Desk :=
  if method ∉ zscoreMethods then
    (.ok (refuse ("method=" ++ py.repr method ++ " has no implementation in this repo yet; available: " ++
      ", ".intercalate zscoreMethods) "METHOD_NOT_AVAILABLE"), desk)
  else
    match gatedEvidence py desk.artifacts evidenceIds with
    | .error refusal => (.ok refusal, desk)
    | .ok evidence =>
      let grouped := groupBySeries (evidenceIds.zip evidence)
      match detectEach py deps grouped.rows desk with
      | (.error raised, desk) => (.error raised, desk)
      | (.ok (ids, warnings), desk) =>
        if ids = [] ∧ warnings ≠ [] then (.ok (insufficient ("; ".intercalate warnings)), desk)
        else
          (.ok (computed ids (toString ids.length ++ " anomaly(ies) across " ++ toString grouped.rows.length ++ " series")
            evidenceIds warnings), desk)

end Detection

/-! One series. -/

def Judgement.finding? : Judgement → Option Finding
  | .anomaly f => some f
  | _ => none

def Judgement.warning? : Judgement → Option String
  | .thin warning => some warning
  | _ => none

variable {series : List Reading}

theorem mem_usable {r : Reading} : r ∈ usable series ↔ r ∈ series ∧ r.2.value.isSome = true := by
  rw [usable, mem_filter, byStart, mem_sortBy]

theorem usable_pairwise (series : List Reading) : (usable series).Pairwise fun r r' => r.start.2 ≤ r'.start.2 :=
  (sortBy_pairwise _ series).filter _

theorem usable_perm {series' : List Reading} (h : series.Perm series') : (usable series).Perm (usable series') :=
  ((sortBy_perm _ series).trans (h.trans (sortBy_perm _ series').symm)).filter _

/-- An anomaly is found where the last usable reading is one against those before it. -/
theorem judge_anomaly_iff {key : PairKey} {f : Finding} : judge key series = .anomaly f ↔
    Sortable series ∧ ∃ history observed result, usable series = history ++ [observed] ∧ history ≠ [] ∧
      robustZscore (valuesOf history) (observed.2.value.getD 0) = some result ∧ result.isAnomaly = true ∧
      f = anomalyFinding key history observed result := by
  unfold judge
  split
  · next hsortable =>
    constructor
    · intro h
      split at h
      · next observed next earlier hreverse =>
        split at h
        · next result hresult =>
          split at h
          · next hanomaly =>
            cases h
            refine ⟨hsortable, (next :: earlier).reverse, observed, result, ?_, by simp, hresult, hanomaly, rfl⟩
            rw [← reverse_cons, ← hreverse, reverse_reverse]
          · cases h
        · cases h
      · cases h
    · intro ⟨_, history, observed, result, husable, hne, hresult, hanomaly, hf⟩
      have hreverse : (usable series).reverse = observed :: history.reverse := by
        rw [husable, reverse_append]
        rfl
      obtain ⟨next, earlier, hhistory⟩ := exists_cons_of_ne_nil (mt reverse_eq_nil_iff.mp hne)
      have hback : (next :: earlier).reverse = history := by
        rw [← hhistory, reverse_reverse]
      rw [hreverse, hhistory]
      dsimp only
      rw [hback, hresult]
      dsimp only
      rw [if_pos hanomaly, hf]
  · next hmixed =>
    constructor
    · intro h
      cases h
    · intro h
      exact absurd h.1 hmixed

theorem judge_thin_iff {key : PairKey} {warning : String} : judge key series = .thin warning ↔
    Sortable series ∧ (usable series).length < 2 ∧ warning = thinWarning key.1 (usable series).length := by
  unfold judge
  split
  · next hsortable =>
    split
    · next observed next earlier hreverse =>
      have hlong : 2 ≤ (usable series).length := by
        rw [← length_reverse, hreverse, length_cons, length_cons]
        omega
      constructor
      · intro h
        split at h
        · split at h <;> cases h
        · cases h
      · intro h
        omega
    · next few hfew =>
      have hlength : ((usable series).reverse).length = (usable series).length := length_reverse
      have hshort : (usable series).length < 2 := by
        rw [← hlength]
        cases hreverse : (usable series).reverse with
        | nil => simp
        | cons r rest =>
          cases rest with
          | nil => simp
          | cons r' rest => exact absurd hreverse (hfew r r' rest)
      rw [hlength]
      constructor
      · intro h
        cases h
        exact ⟨hsortable, hshort, rfl⟩
      · intro ⟨_, _, hwarning⟩
        rw [hwarning]
  · next hmixed =>
    constructor
    · intro h
      cases h
    · intro h
      exact absurd h.1 hmixed

theorem judge_incomparable_iff {key : PairKey} : judge key series = .incomparable ↔ ¬Sortable series := by
  unfold judge
  split
  · next hsortable =>
    constructor
    · intro h
      split at h
      · split at h
        · split at h <;> cases h
        · cases h
      · cases h
    · intro h
      exact absurd hsortable h
  · next hmixed => exact ⟨fun _ => hmixed, fun _ => rfl⟩

end SelericSwarm.Analytics
