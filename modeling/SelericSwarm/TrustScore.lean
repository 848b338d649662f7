import SelericSwarm.AgentLoop
import SelericSwarm.ValidationChecks

/-! The two signals of the validator: the trust score and the verdict. -/
open List

namespace SelericSwarm.Validation
open Keyed

inductive TrustLabel where
  | insufficient | weak | probable | strong | verified
  deriving DecidableEq, Repr

/-! `policy_config.py`. -/

namespace Policy

/-- Above `INSUFFICIENT`, in their order. -/
def trustLabelThresholds : List (TrustLabel × ℚ) :=
  [(.weak, 7 / 20), (.probable, 11 / 20), (.strong, 18 / 25), (.verified, 9 / 10)]

def trustReviseBelow : ℚ := 11 / 20
def trustBlockingCap : ℚ := 3 / 10
def altPriorityReviseFloor : Int := 6
def methodologyTrustMargin : ℚ := 3 / 20

def trustProfile : ClaimType → List (String × ℚ)
  | .numeric => [("source_reliability", 1 / 4), ("metric_validity", 1 / 4), ("freshness", 1 / 5),
      ("provenance_completeness", 1 / 5), ("cross_source_agreement", 1 / 10)]
  | .causal => [("evidence_quality", 3 / 20), ("temporal_validity", 3 / 20), ("graph_plausibility", 3 / 20),
      ("confounder_coverage", 3 / 20), ("estimator_validity", 1 / 10), ("refutation_robustness", 3 / 20),
      ("alternative_elimination", 1 / 10), ("cross_source_agreement", 1 / 20)]
  | .forecast => [("model_applicability", 1 / 4), ("backtest_quality", 1 / 5), ("drift_status", 1 / 4),
      ("calibration", 1 / 10), ("feature_freshness", 1 / 10), ("interval_quality", 1 / 10)]
  | .default => [("evidence_quality", 2 / 5), ("provenance_completeness", 3 / 10), ("cross_source_agreement", 3 / 10)]

def reviseCategories : List String :=
  ["metric", "source", "contradiction", "anomaly", "statistical", "model", "forecast", "causal", "data_quality",
    "temporal"]

theorem trustProfile_pos (type : ClaimType) : ∀ entry ∈ trustProfile type, 0 < entry.2 := by
  cases type <;> simp [trustProfile]

end Policy

/-! `trust.py`. -/

def dimensionSignals : List (String × List String) :=
  [("evidence_quality", ["evidence_quality", "statistical_strength"]),
    ("provenance_completeness", ["provenance_completeness"]),
    ("cross_source_agreement", ["cross_source_agreement"]),
    ("source_reliability", ["provenance_completeness", "cross_source_agreement"]),
    ("metric_validity", ["metric_validity"]),
    ("freshness", ["evidence_quality"]),
    ("temporal_validity", ["temporal_validity"]),
    ("graph_plausibility", ["graph_plausibility"]),
    ("confounder_coverage", ["confounder_coverage"]),
    ("estimator_validity", ["estimator_validity"]),
    ("refutation_robustness", ["refutation_robustness"]),
    ("alternative_elimination", ["_alt_elimination"]),
    ("model_applicability", ["model_applicability"]),
    ("backtest_quality", ["backtest_quality"]),
    ("drift_status", ["drift_status"]),
    ("calibration", ["forecast_quality"]),
    ("feature_freshness", ["evidence_quality", "forecast_quality"]),
    ("interval_quality", ["interval_quality"])]

structure TrustResult where
  score : ℚ
  label : TrustLabel
  components : Dict String ℚ

/-- The last threshold that is passed. -/
def labelFor (score : ℚ) : TrustLabel :=
  Policy.trustLabelThresholds.foldl (fun label entry => if entry.2 ≤ score then entry.1 else label) .insufficient

/-- The least reading of each signal. -/
def merged (readings : List (String × ℚ)) : Dict String ℚ :=
  readings.foldl (fun signals entry => signals.set entry.1 (min (signals.getD entry.1 1) entry.2)) .empty

def altElimination (alternatives : List AlternativeHypothesis) : ℚ :=
  if alternatives = [] then 1
  else max 0 (1 - (alternatives.countP (·.status = .unresolved) : ℚ) / (max 1 alternatives.length : ℕ))

def signalsOf (outcomes : List CheckOutcome) (alternatives : List AlternativeHypothesis) : Dict String ℚ :=
  (merged (outcomes.flatMap fun oc => oc.scoreSignals.rows)).set "_alt_elimination" (altElimination alternatives)

def feeders (dimension : String) : List String := (dimensionSignals.lookup dimension).getD [dimension]

/-- What feeds a dimension of the profile; without a feeder it is dropped. -/
def dimensionValue (signals : Dict String ℚ) (dimension : String) : Option ℚ :=
  let vals := (feeders dimension).filterMap signals.get?
  if vals = [] then none else some (Means.mean vals)

/-- The dimensions that are fed, with their weights and values. -/
def fed (signals : Dict String ℚ) (profile : List (String × ℚ)) : List (String × ℚ × ℚ) :=
  profile.filterMap fun entry => (dimensionValue signals entry.1).map fun val => (entry.1, entry.2, val)

section Trust
variable (rounding : Decimals.Rounding)

/-- The score before the cap. -/
def averaged (parts : List (String × ℚ × ℚ)) : ℚ :=
  if (parts.map fun part => part.2.1).sum = 0 then 0 else rounding.round 4 (Means.weightedMean (parts.map Prod.snd))

def capped (outcomes : List CheckOutcome) (score : ℚ) : ℚ :=
  max 0 (min 1 (if outcomes.any CheckOutcome.hasBlocking then min score Policy.trustBlockingCap else score))

def scoreTrust (outcomes : List CheckOutcome) (alternatives : List AlternativeHypothesis) (claimType : ClaimType) :
    TrustResult :=
  let parts := fed (signalsOf outcomes alternatives) (Policy.trustProfile claimType)
  let score := capped outcomes (averaged rounding parts)
  { score, label := labelFor score
    components := parts.foldl (fun components part => components.set part.1 (rounding.round 3 part.2.2)) .empty }

end Trust

/-! `verdict.py`. -/

structure VerdictDecision where
  verdict : Agent.Verdict
  reasons : List String

def CheckStatus.text : CheckStatus → String
  | .ok => "OK"
  | .weak => "WEAK"
  | .rejected => "REJECTED"
  | .unavailable => "UNAVAILABLE"
  | .notApplicable => "NOT_APPLICABLE"
  | .insufficient => "INSUFFICIENT"

def CheckOutcome.rejections (oc : CheckOutcome) : List String :=
  (if oc.status = .rejected then [oc.check ++ ": REJECTED"] else []) ++
    (oc.challenges.filter (·.severity = .blocking)).map fun ch => oc.check ++ ": blocking - " ++ ch.description

/-- A warning of a category that asks for a revision. -/
def Challenge.unsettled (ch : Challenge) : Bool := ch.category ∈ Policy.reviseCategories && ch.severity = .warning

def AlternativeHypothesis.pressing (a : AlternativeHypothesis) : Bool :=
  a.status = .unresolved && Policy.altPriorityReviseFloor ≤ a.priority

def CheckOutcome.lacking (oc : CheckOutcome) : Bool := oc.status = .unavailable || oc.status = .insufficient

/-- Why the claim is to be revised. -/
def objections (outcomes : List CheckOutcome) (gaps : List EvidenceGap) (alternatives : List AlternativeHypothesis)
    (trustScore : ℚ) : List String :=
  (gaps.filter EvidenceGap.blocking).map (fun g => "blocking evidence gap: " ++ g.description) ++
    (alternatives.filter AlternativeHypothesis.pressing).map (fun a => "unresolved alternative: " ++ a.hypothesis) ++
    ((outcomes.flatMap CheckOutcome.challenges).filter Challenge.unsettled).map
      (fun ch => "unresolved issue: " ++ ch.description) ++
    (outcomes.filter CheckOutcome.lacking).map (fun oc => oc.check ++ ": " ++ oc.status.text) ++
    (if trustScore < Policy.trustReviseBelow then
      ["trust_score " ++ Decimals.fixed 2 trustScore ++ " < " ++ Decimals.fixed 2 Policy.trustReviseBelow] else []) ++
    if (outcomes.any fun oc => !oc.methodologicalIssues.isEmpty) &&
        decide (trustScore < Policy.trustReviseBelow + Policy.methodologyTrustMargin) then
      ["nonfatal methodological issues with only moderate trust"] else []

def decideVerdict (outcomes : List CheckOutcome) (gaps : List EvidenceGap) (alternatives : List AlternativeHypothesis)
    (trustScore : ℚ) : VerdictDecision :=
  let rejections := outcomes.flatMap CheckOutcome.rejections
  let reasons := objections outcomes gaps alternatives trustScore
  if rejections ≠ [] then { verdict := .reject, reasons := rejections }
  else if reasons ≠ [] then { verdict := .revise, reasons }
  else { verdict := .pass, reasons := ["all gates passed; trust_score " ++ Decimals.fixed 2 trustScore] }

/-! What a verdict says. -/

section Verdicts
variable {outcomes : List CheckOutcome} {gaps : List EvidenceGap} {alternatives : List AlternativeHypothesis}
  {trustScore : ℚ}

theorem rejections_eq_nil_iff : outcomes.flatMap CheckOutcome.rejections = [] ↔
    ∀ oc ∈ outcomes, oc.status ≠ .rejected ∧ ∀ ch ∈ oc.challenges, ch.severity ≠ .blocking := by
  simp [flatMap_eq_nil_iff, CheckOutcome.rejections, filter_eq_nil_iff]

/-- Every gate is cleared. -/
structure Cleared (outcomes : List CheckOutcome) (gaps : List EvidenceGap) (alternatives : List AlternativeHypothesis)
    (trustScore : ℚ) : Prop where
  sound : ∀ oc ∈ outcomes, oc.status ≠ .rejected ∧ ∀ ch ∈ oc.challenges, ch.severity ≠ .blocking
  backed : ∀ g ∈ gaps, g.blocking = false
  settled : ∀ a ∈ alternatives, a.pressing = false
  unwarned : ∀ oc ∈ outcomes, ∀ ch ∈ oc.challenges, ch.unsettled = false
  supplied : ∀ oc ∈ outcomes, oc.lacking = false
  trusted : Policy.trustReviseBelow ≤ trustScore
  methodical : (∃ oc ∈ outcomes, oc.methodologicalIssues ≠ []) →
    Policy.trustReviseBelow + Policy.methodologyTrustMargin ≤ trustScore

theorem objections_eq_nil_iff : objections outcomes gaps alternatives trustScore = [] ↔
    (∀ g ∈ gaps, g.blocking = false) ∧ (∀ a ∈ alternatives, a.pressing = false) ∧
      (∀ oc ∈ outcomes, ∀ ch ∈ oc.challenges, ch.unsettled = false) ∧ (∀ oc ∈ outcomes, oc.lacking = false) ∧
      Policy.trustReviseBelow ≤ trustScore ∧ ((∃ oc ∈ outcomes, oc.methodologicalIssues ≠ []) →
        Policy.trustReviseBelow + Policy.methodologyTrustMargin ≤ trustScore) := by
  have hwarnings : (∀ ch ∈ outcomes.flatMap CheckOutcome.challenges, ch.unsettled = false) ↔
      ∀ oc ∈ outcomes, ∀ ch ∈ oc.challenges, ch.unsettled = false := by
    simp only [mem_flatMap]
    exact ⟨fun h oc hoc ch hch => h ch ⟨oc, hoc, hch⟩, fun h ch ⟨oc, hoc, hch⟩ => h oc hoc ch hch⟩
  unfold objections
  simp only [append_eq_nil_iff, map_eq_nil_iff, filter_eq_nil_iff, ite_eq_right_iff, cons_ne_nil,
    imp_false, Bool.not_eq_true, not_lt, and_assoc]
  rw [hwarnings]
  simp

theorem decideVerdict_pass_iff : (decideVerdict outcomes gaps alternatives trustScore).verdict = .pass ↔
    Cleared outcomes gaps alternatives trustScore := by
  unfold decideVerdict
  dsimp only
  by_cases hreject : outcomes.flatMap CheckOutcome.rejections = []
  · rw [if_neg (not_not.mpr hreject)]
    by_cases hrevise : objections outcomes gaps alternatives trustScore = []
    · rw [if_neg (not_not.mpr hrevise)]
      obtain ⟨hgaps, halternatives, hwarnings, hlacking, htrust, hmethod⟩ := objections_eq_nil_iff.mp hrevise
      exact iff_of_true rfl
        ⟨rejections_eq_nil_iff.mp hreject, hgaps, halternatives, hwarnings, hlacking, htrust, hmethod⟩
    · rw [if_pos hrevise]
      refine iff_of_false (fun heq => nomatch heq) fun h => hrevise (objections_eq_nil_iff.mpr ?_)
      exact ⟨h.backed, h.settled, h.unwarned, h.supplied, h.trusted, h.methodical⟩
  · rw [if_pos hreject]
    exact iff_of_false (fun heq => nomatch heq) fun h => hreject (rejections_eq_nil_iff.mpr h.sound)

theorem decideVerdict_of_blocking (h : outcomes.any CheckOutcome.hasBlocking = true) :
    (decideVerdict outcomes gaps alternatives trustScore).verdict = .reject := by
  have hne : outcomes.flatMap CheckOutcome.rejections ≠ [] := by
    intro hnil
    obtain ⟨oc, hoc, hblocking⟩ := List.any_eq_true.mp h
    obtain ⟨ch, hch, hseverity⟩ := List.any_eq_true.mp hblocking
    exact (rejections_eq_nil_iff.mp hnil oc hoc).2 ch hch (of_decide_eq_true hseverity)
  unfold decideVerdict
  dsimp only
  rw [if_pos hne]

end Verdicts

/-! Better readings, fewer challenges and fewer open alternatives. -/

/-- What the two signals are computed from. -/
structure Case where
  outcomes : List CheckOutcome
  gaps : List EvidenceGap
  alternatives : List AlternativeHypothesis
  claimType : ClaimType

namespace Case

def readings (c : Case) : List (String × ℚ) := c.outcomes.flatMap fun oc => oc.scoreSignals.rows

def trust (rounding : Decimals.Rounding) (c : Case) : TrustResult :=
  scoreTrust rounding c.outcomes c.alternatives c.claimType

def verdict (rounding : Decimals.Rounding) (c : Case) : Agent.Verdict :=
  (decideVerdict c.outcomes c.gaps c.alternatives (c.trust rounding).score).verdict

/-- One signal is raised, one challenge is gone, or one alternative is eliminated. -/
inductive Better : Case → Case → Prop where
  | signal {c : Case} {before after : List CheckOutcome} {oc : CheckOutcome} {name : String} {value value' : ℚ}
      (houtcomes : c.outcomes = before ++ oc :: after) (hvalue : oc.scoreSignals.get? name = some value)
      (hle : value ≤ value') : Better c
        { c with outcomes := before ++ { oc with scoreSignals := oc.scoreSignals.set name value' } :: after }
  | challenge {c : Case} {before after : List CheckOutcome} {oc : CheckOutcome} {earlier later : List Challenge}
      {ch : Challenge} (houtcomes : c.outcomes = before ++ oc :: after)
      (hchallenges : oc.challenges = earlier ++ ch :: later) : Better c
        { c with outcomes := before ++ { oc with challenges := earlier ++ later } :: after }
  | alternative {c : Case} {before after : List AlternativeHypothesis} {a : AlternativeHypothesis}
      (halternatives : c.alternatives = before ++ a :: after) (hstatus : a.status = .unresolved) : Better c
        { c with alternatives := before ++ { a with status := .eliminated } :: after }

/-- The second outcome has no more against it than the first. -/
structure Milder (oc oc' : CheckOutcome) : Prop where
  status : oc'.status = oc.status
  challenges : oc'.challenges ⊆ oc.challenges
  issues : oc'.methodologicalIssues = oc.methodologicalIssues

theorem Milder.refl (oc : CheckOutcome) : Milder oc oc := ⟨rfl, List.Subset.refl _, rfl⟩

/-- The second reading is of the same signal and no lower. -/
def Raised (e e' : String × ℚ) : Prop := e.1 = e'.1 ∧ e.2 ≤ e'.2

/-- The second case is as good as the first in every respect. -/
structure Improved (c c' : Case) : Prop where
  readings : List.Forall₂ Raised c.readings c'.readings
  outcomes : List.Forall₂ Milder c.outcomes c'.outcomes
  gaps : c'.gaps = c.gaps
  eliminated : altElimination c.alternatives ≤ altElimination c'.alternatives
  pressing : ∀ a ∈ c'.alternatives, a.pressing = true → a ∈ c.alternatives
  claimType : c'.claimType = c.claimType

theorem raised_refl (readings : List (String × ℚ)) : List.Forall₂ Raised readings readings :=
  forall₂_same.mpr fun _ _ => ⟨rfl, le_refl _⟩

theorem milder_refl (outcomes : List CheckOutcome) : List.Forall₂ Milder outcomes outcomes :=
  forall₂_same.mpr fun oc _ => Milder.refl oc

theorem raised_set {signals : Dict String ℚ} {name : String} {value value' : ℚ} (h : signals.get? name = some value)
    (hle : value ≤ value') : List.Forall₂ Raised signals.rows (signals.set name value').rows := by
  obtain ⟨row, hrow, hvalue⟩ := Option.map_eq_some_iff.mp h
  have hname : row.1 = name := Table.key_of_get? hrow
  have hrows : (signals.set name value').rows = Table.replace Prod.fst (name, value') signals.rows :=
    Table.put_rows_of_get? hrow
  rw [hrows, Table.replace, forall₂_map_right_iff]
  refine forall₂_same.mpr fun e he => ?_
  by_cases hkey : e.1 = name
  · have hsame : e = row := Table.eq_of_mem he (Table.mem_of_get? hrow) (hkey.trans hname.symm)
    rw [if_pos hkey]
    refine ⟨hkey, ?_⟩
    rw [hsame, hvalue]
    exact hle
  · rw [if_neg hkey]
    exact ⟨rfl, le_refl _⟩

theorem altElimination_le {before after : List AlternativeHypothesis} {a : AlternativeHypothesis}
    (h : a.status = .unresolved) : altElimination (before ++ a :: after) ≤
      altElimination (before ++ { a with status := .eliminated } :: after) := by
  have hopen : (before ++ { a with status := .eliminated } :: after).countP (·.status = .unresolved) ≤
      (before ++ a :: after).countP (·.status = .unresolved) := by
    simp [countP_append, h]
  unfold altElimination
  rw [if_neg (by simp), if_neg (by simp)]
  have hlength : (before ++ { a with status := .eliminated } :: after).length = (before ++ a :: after).length := by
    simp
  rw [hlength]
  refine max_le_max_left 0 (sub_le_sub_left (div_le_div_of_nonneg_right ?_ (Nat.cast_nonneg _)) 1)
  exact Nat.cast_le.mpr hopen

theorem Better.improved {c c' : Case} (h : c.Better c') : c.Improved c' := by
  cases h with
  | signal houtcomes hvalue hle =>
    refine ⟨?_, ?_, rfl, le_refl _, fun a ha _ => ha, rfl⟩
    · simp only [readings, houtcomes, flatMap_append, flatMap_cons]
      exact rel_append (raised_refl _) (rel_append (raised_set hvalue hle) (raised_refl _))
    · rw [houtcomes]
      exact rel_append (milder_refl _) (.cons ⟨rfl, List.Subset.refl _, rfl⟩ (milder_refl _))
  | challenge houtcomes hchallenges =>
    refine ⟨?_, ?_, rfl, le_refl _, fun a ha _ => ha, rfl⟩
    · simp only [readings, houtcomes, flatMap_append, flatMap_cons]
      exact raised_refl _
    · rw [houtcomes]
      refine rel_append (milder_refl _) (.cons ⟨rfl, ?_, rfl⟩ (milder_refl _))
      rw [hchallenges]
      exact append_subset.mpr ⟨subset_append_left _ _,
        subset_append_of_subset_right _ (subset_cons_self _ _)⟩
  | alternative halternatives hstatus =>
    refine ⟨raised_refl _, milder_refl _, rfl, ?_, ?_, rfl⟩
    · rw [halternatives]
      exact altElimination_le hstatus
    · intro b hb hpressing
      rw [halternatives]
      obtain hb | hb := mem_append.mp hb
      · exact mem_append_left _ hb
      · obtain rfl | hb := mem_cons.mp hb
        · cases hpressing
        · exact mem_append_right _ (mem_cons_of_mem _ hb)

end Case

/-! The score of an improved case. -/

variable {signals signals' : Dict String ℚ} {outcomes : List CheckOutcome}

theorem getD_le {name : String} (h : Option.Rel (· ≤ ·) (signals.get? name) (signals'.get? name)) :
    signals.getD name 1 ≤ signals'.getD name 1 := by
  unfold Dict.getD
  generalize signals.get? name = value at h
  generalize signals'.get? name = value' at h
  cases h with
  | some h => exact h
  | none => exact le_refl _

theorem merged_mono {readings readings' : List (String × ℚ)} (h : List.Forall₂ Case.Raised readings readings') :
    ∀ signals signals' : Dict String ℚ, (∀ name, Option.Rel (· ≤ ·) (signals.get? name) (signals'.get? name)) →
      ∀ name, Option.Rel (· ≤ ·)
        ((readings.foldl (fun d e => d.set e.1 (min (d.getD e.1 1) e.2)) signals).get? name)
        ((readings'.foldl (fun d e => d.set e.1 (min (d.getD e.1 1) e.2)) signals').get? name) := by
  induction h with
  | nil => exact fun _ _ h => h
  | @cons e e' readings readings' he _ ih =>
    intro signals signals' hsignals
    refine ih _ _ fun name => ?_
    rw [Dict.get?_set, Dict.get?_set, ← he.1]
    by_cases hname : e.1 = name
    · rw [if_pos hname, if_pos hname]
      exact .some (min_le_min (getD_le (hsignals e.1)) he.2)
    · rw [if_neg hname, if_neg hname]
      exact hsignals name

theorem filterMap_rel (names : List String) {f g : String → Option ℚ} (h : ∀ name, Option.Rel (· ≤ ·) (f name) (g name)) :
    List.Forall₂ (· ≤ ·) (names.filterMap f) (names.filterMap g) := by
  induction names with
  | nil => exact .nil
  | cons name names ih =>
    have hname := h name
    rw [filterMap_cons, filterMap_cons]
    generalize f name = x at hname
    generalize g name = y at hname
    cases hname with
    | none => exact ih
    | some hle => exact .cons hle ih

theorem dimensionValue_rel (h : ∀ name, Option.Rel (· ≤ ·) (signals.get? name) (signals'.get? name))
    (dimension : String) :
    Option.Rel (· ≤ ·) (dimensionValue signals dimension) (dimensionValue signals' dimension) := by
  have hvals := filterMap_rel (feeders dimension) h
  unfold dimensionValue
  dsimp only
  by_cases hnil : (feeders dimension).filterMap signals.get? = []
  · rw [hnil] at hvals ⊢
    rw [forall₂_nil_left_iff.mp hvals]
    exact .none
  · have hnil' : (feeders dimension).filterMap signals'.get? ≠ [] := by
      intro hnone
      rw [hnone] at hvals
      exact hnil (forall₂_nil_right_iff.mp hvals)
    rw [if_neg hnil, if_neg hnil']
    exact .some (Means.mean_mono hvals)

/-- The second part is of the same dimension and weight, and its value no lower. -/
def Heightened (part part' : String × ℚ × ℚ) : Prop :=
  part.1 = part'.1 ∧ part.2.1 = part'.2.1 ∧ 0 ≤ part.2.1 ∧ part.2.2 ≤ part'.2.2

theorem fed_mono (h : ∀ name, Option.Rel (· ≤ ·) (signals.get? name) (signals'.get? name))
    {profile : List (String × ℚ)} (hprofile : ∀ entry ∈ profile, 0 < entry.2) :
    List.Forall₂ Heightened (fed signals profile) (fed signals' profile) := by
  induction profile with
  | nil => exact .nil
  | cons entry profile ih =>
    have hrest := ih fun e he => hprofile e (mem_cons_of_mem entry he)
    have hvalue := dimensionValue_rel h entry.1
    unfold fed
    rw [filterMap_cons, filterMap_cons]
    generalize dimensionValue signals entry.1 = value at hvalue
    generalize dimensionValue signals' entry.1 = value' at hvalue
    cases hvalue with
    | none => exact hrest
    | some hle => exact .cons ⟨rfl, rfl, (hprofile entry mem_cons_self).le, hle⟩ hrest

theorem averaged_mono (rounding : Decimals.Rounding) {parts parts' : List (String × ℚ × ℚ)}
    (h : List.Forall₂ Heightened parts parts') : averaged rounding parts ≤ averaged rounding parts' := by
  have hweights : (parts.map fun part => part.2.1) = parts'.map fun part => part.2.1 := by
    induction h with
    | nil => rfl
    | cons hpart _ ih => rw [map_cons, map_cons, hpart.2.1, ih]
  have hmean : Means.weightedMean (parts.map Prod.snd) ≤ Means.weightedMean (parts'.map Prod.snd) :=
    Means.weightedMean_mono
      (forall₂_map_left_iff.mpr (forall₂_map_right_iff.mpr (h.imp fun _ _ hpart => hpart.2)))
  unfold averaged
  rw [hweights]
  split
  · exact le_refl _
  · exact rounding.mono 4 hmean

theorem hasBlocking_of_milder {outcomes' : List CheckOutcome} (h : List.Forall₂ Case.Milder outcomes outcomes')
    (hblocking : outcomes'.any CheckOutcome.hasBlocking = true) : outcomes.any CheckOutcome.hasBlocking = true := by
  induction h with
  | nil => exact hblocking
  | @cons oc oc' outcomes outcomes' hmilder _ ih =>
    rw [any_cons, Bool.or_eq_true] at hblocking ⊢
    obtain hfirst | hrest := hblocking
    · obtain ⟨ch, hch, hseverity⟩ := List.any_eq_true.mp hfirst
      exact .inl (List.any_eq_true.mpr ⟨ch, hmilder.challenges hch, hseverity⟩)
    · exact .inr (ih hrest)

theorem capped_mono {outcomes' : List CheckOutcome} (h : List.Forall₂ Case.Milder outcomes outcomes')
    {score score' : ℚ} (hle : score ≤ score') : capped outcomes score ≤ capped outcomes' score' := by
  unfold capped
  refine max_le_max_left 0 (min_le_min_left 1 ?_)
  by_cases hblocking : outcomes'.any CheckOutcome.hasBlocking = true
  · rw [if_pos hblocking, if_pos (hasBlocking_of_milder h hblocking)]
    exact min_le_min_right _ hle
  · rw [if_neg hblocking]
    split
    · exact (min_le_left _ _).trans hle
    · exact hle

theorem capped_range (outcomes : List CheckOutcome) (score : ℚ) :
    0 ≤ capped outcomes score ∧ capped outcomes score ≤ 1 :=
  ⟨le_max_left _ _, max_le (by norm_num) (min_le_left _ _)⟩

theorem capped_blocking (h : outcomes.any CheckOutcome.hasBlocking = true) (score : ℚ) :
    capped outcomes score ≤ Policy.trustBlockingCap := by
  unfold capped
  rw [if_pos h]
  exact max_le (by norm_num [Policy.trustBlockingCap]) ((min_le_right _ _).trans (min_le_right _ _))

namespace Case
variable {c c' : Case}

theorem Improved.score (rounding : Decimals.Rounding) (h : c.Improved c') :
    (c.trust rounding).score ≤ (c'.trust rounding).score := by
  have hmerged := merged_mono h.readings .empty .empty fun _ => .none
  have hsignals : ∀ name, Option.Rel (· ≤ ·) ((signalsOf c.outcomes c.alternatives).get? name)
      ((signalsOf c'.outcomes c'.alternatives).get? name) := by
    intro name
    rw [signalsOf, signalsOf, Dict.get?_set, Dict.get?_set]
    split
    · exact .some h.eliminated
    · exact hmerged name
  have hparts := fed_mono hsignals (Policy.trustProfile_pos c.claimType)
  unfold trust scoreTrust
  rw [h.claimType]
  exact capped_mono h.outcomes (averaged_mono rounding hparts)

theorem milder_of_mem {outcomes outcomes' : List CheckOutcome} (h : List.Forall₂ Milder outcomes outcomes')
    {oc' : CheckOutcome} (hoc : oc' ∈ outcomes') : ∃ oc ∈ outcomes, Milder oc oc' := by
  induction h with
  | nil => cases hoc
  | @cons oc first outcomes outcomes' hmilder _ ih =>
    obtain rfl | hoc := mem_cons.mp hoc
    · exact ⟨oc, mem_cons_self, hmilder⟩
    · obtain ⟨oc', hmem, hrest⟩ := ih hoc
      exact ⟨oc', mem_cons_of_mem _ hmem, hrest⟩

theorem Improved.cleared (h : c.Improved c') {trustScore trustScore' : ℚ} (hle : trustScore ≤ trustScore')
    (hcleared : Cleared c.outcomes c.gaps c.alternatives trustScore) :
    Cleared c'.outcomes c'.gaps c'.alternatives trustScore' where
  sound oc' hoc' := by
    obtain ⟨oc, hoc, hmilder⟩ := milder_of_mem h.outcomes hoc'
    obtain ⟨hstatus, hseverity⟩ := hcleared.sound oc hoc
    exact ⟨hmilder.status ▸ hstatus, fun ch hch => hseverity ch (hmilder.challenges hch)⟩
  backed := h.gaps ▸ hcleared.backed
  settled a ha := by
    by_contra hpressing
    rw [Bool.not_eq_false] at hpressing
    have hbefore := hcleared.settled a (h.pressing a ha hpressing)
    rw [hpressing] at hbefore
    cases hbefore
  unwarned oc' hoc' ch hch := by
    obtain ⟨oc, hoc, hmilder⟩ := milder_of_mem h.outcomes hoc'
    exact hcleared.unwarned oc hoc ch (hmilder.challenges hch)
  supplied oc' hoc' := by
    obtain ⟨oc, hoc, hmilder⟩ := milder_of_mem h.outcomes hoc'
    have hlacking := hcleared.supplied oc hoc
    rwa [CheckOutcome.lacking, ← hmilder.status] at hlacking
  trusted := hcleared.trusted.trans hle
  methodical := by
    intro ⟨oc', hoc', hissues⟩
    obtain ⟨oc, hoc, hmilder⟩ := milder_of_mem h.outcomes hoc'
    rw [hmilder.issues] at hissues
    exact (hcleared.methodical ⟨oc, hoc, hissues⟩).trans hle

theorem Improved.verdict (rounding : Decimals.Rounding) (h : c.Improved c') (hpass : c.verdict rounding = .pass) :
    c'.verdict rounding = .pass :=
  decideVerdict_pass_iff.mpr (h.cleared (h.score rounding) (decideVerdict_pass_iff.mp hpass))

/-- The score stays in its range and below the cap, a pass has every gate cleared, and neither signal gets worse
when the case gets better. -/
theorem safe_and_monotone (rounding : Decimals.Rounding) (c : Case) :
    (0 ≤ (c.trust rounding).score ∧ (c.trust rounding).score ≤ 1) ∧
      ((∃ oc ∈ c.outcomes, ∃ ch ∈ oc.challenges, ch.severity = .blocking) →
        (c.trust rounding).score ≤ Policy.trustBlockingCap ∧ c.verdict rounding = .reject) ∧
      (c.verdict rounding = .pass → (∀ oc ∈ c.outcomes, oc.status ∉ [.rejected, .insufficient, .unavailable]) ∧
        (∀ g ∈ c.gaps, g.blocking = false) ∧
        (∀ a ∈ c.alternatives, a.status = .unresolved → a.priority < Policy.altPriorityReviseFloor) ∧
        (∀ oc ∈ c.outcomes, ∀ ch ∈ oc.challenges, ch.severity = .warning → ch.category ∉ Policy.reviseCategories) ∧
        Policy.trustReviseBelow ≤ (c.trust rounding).score) ∧
      ∀ c', c.Better c' → (c.trust rounding).score ≤ (c'.trust rounding).score ∧
        (c.verdict rounding = .pass → c'.verdict rounding = .pass) := by
  refine ⟨capped_range _ _, ?_, ?_, ?_⟩
  · intro ⟨oc, hoc, ch, hch, hseverity⟩
    have hblocking : c.outcomes.any CheckOutcome.hasBlocking = true :=
      List.any_eq_true.mpr ⟨oc, hoc, List.any_eq_true.mpr ⟨ch, hch, decide_eq_true hseverity⟩⟩
    exact ⟨capped_blocking hblocking _, decideVerdict_of_blocking hblocking⟩
  · intro hpass
    have hcleared := decideVerdict_pass_iff.mp hpass
    refine ⟨?_, hcleared.backed, ?_, ?_, hcleared.trusted⟩
    · intro oc hoc
      have hstatus := (hcleared.sound oc hoc).1
      have hlacking := hcleared.supplied oc hoc
      simp only [CheckOutcome.lacking, Bool.or_eq_false_iff, decide_eq_false_iff_not] at hlacking
      simp [hstatus, hlacking.1, hlacking.2]
    · intro a ha hstatus
      have hpressing := hcleared.settled a ha
      simpa [AlternativeHypothesis.pressing, hstatus] using hpressing
    · intro oc hoc ch hch hseverity
      have hunwarned := hcleared.unwarned oc hoc ch hch
      simpa [Challenge.unsettled, hseverity] using hunwarned
  · intro c' hbetter
    exact ⟨hbetter.improved.score rounding, hbetter.improved.verdict rounding⟩

end Case
end SelericSwarm.Validation
