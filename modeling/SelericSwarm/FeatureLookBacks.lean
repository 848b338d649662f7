import SelericSwarm.MetricFeatures

/-! How far back the features look, and what a longer history changes. -/
namespace SelericSwarm.BusinessState
open Keyed List Option
variable (int : String → Option Int) {pstdev : List ℚ → ℚ} {values before : List ℚ} {k : String}

/-- The days of a window; nothing where it takes all values there are, or a part of them that the end does not tell. -/
def windowDays (window : Option String) : Option Nat :=
  match window with
  | none => none
  | some window =>
    if window.endsWith "d" then ((int (window.dropEnd 1).toString).filter (0 < ·)).map Int.toNat else none

/-- How many of the last values a feature is made of. -/
def FeatureSpec.lookBack (spec : FeatureSpec) : Option Nat :=
  match spec.strategy with
  | "current_value" => some 1
  | "period_delta_pct" => some 2
  | "rolling_mean" => windowDays int spec.window
  | "rolling_std" => windowDays int spec.window
  | _ => some 0

/-- So many values are enough for the feature. -/
def FeatureSpec.Fits (spec : FeatureSpec) (count : Nat) : Prop :=
  spec.minPoints ≤ count ∧ ∃ n, spec.lookBack int = some n ∧ n ≤ count

def FeatureSpec.Short (spec : FeatureSpec) (values : List ℚ) : Prop :=
  spec.strategy ≠ "freshness_age" ∧
    ((values.length : Int) < spec.minPoints ∨ spec.strategy = "period_delta_pct" ∧ deltaPct values = none)

variable {int}

theorem deltaPct_append (h : 2 ≤ values.length) : deltaPct (before ++ values) = deltaPct values := by
  have hlength : 2 ≤ values.reverse.length := by rwa [length_reverse]
  unfold deltaPct
  rw [reverse_append]
  match values.reverse, hlength with
  | _ :: _ :: _, _ => rfl

theorem deltaPct_eq_none (h : values.length < 2) : deltaPct values = none := by
  have hlength : values.reverse.length < 2 := by rwa [length_reverse]
  unfold deltaPct
  match values.reverse, hlength with
  | [], _ => rfl
  | [_], _ => rfl
  | _ :: _ :: _, hlength =>
    simp only [length_cons] at hlength
    omega

theorem lastOf_append {n : Int} (hpos : 0 < n) (h : n.toNat ≤ values.length) :
    lastOf n (before ++ values) = lastOf n values := by
  have hdrop : (before ++ values).length - n.toNat = before.length + (values.length - n.toNat) := by
    rw [length_append]
    omega
  rw [lastOf, if_pos hpos, lastOf, if_pos hpos, hdrop, drop_append]
  rw [drop_eq_nil_of_le (by omega), nil_append]
  congr 1
  omega

/-- What is too little with more history is too little with less. -/
theorem FeatureSpec.Short.of_append {spec : FeatureSpec} (h : spec.Short (before ++ values)) : spec.Short values := by
  obtain ⟨hstrategy, hfew | ⟨hdelta, hnone⟩⟩ := h
  · refine ⟨hstrategy, Or.inl ?_⟩
    rw [length_append] at hfew
    omega
  · refine ⟨hstrategy, Or.inr ⟨hdelta, ?_⟩⟩
    obtain hlt | hge := Nat.lt_or_ge values.length 2
    · exact deltaPct_eq_none hlt
    · rwa [deltaPct_append hge] at hnone

theorem windowValues_append {window : Option String} {n : Nat} (hdays : windowDays int window = some n)
    (h : n ≤ values.length) : windowValues int (before ++ values) window = windowValues int values window := by
  unfold windowDays at hdays
  unfold windowValues
  cases window with
  | none => cases hdays
  | some window =>
    dsimp only at hdays ⊢
    split at hdays
    · next hend =>
      rw [if_pos hend, if_pos hend]
      obtain ⟨days, hint, rfl⟩ := map_eq_some_iff.mp hdays
      obtain ⟨hint, hpos⟩ := filter_eq_some_iff.mp hint
      rw [hint, map_some, map_some, lastOf_append (of_decide_eq_true hpos) h]
    · cases hdays

section Turn
variable (int pstdev)

/-- The feature that a turn sets. -/
def featureOf (values : List ℚ) (spec : FeatureSpec) : Option FeatureValue :=
  let set (window : Option String) (value : ℚ) : FeatureValue :=
    { value := some value, window, strategyVersion := some strategyVersion }
  match spec.strategy with
  | "current_value" => values.getLast?.map (set none)
  | "period_delta_pct" => (deltaPct values).map (set spec.window)
  | "rolling_mean" => (windowValues int values spec.window).map fun ws => set spec.window (Means.mean ws)
  | "rolling_std" => (windowValues int values spec.window).map fun ws => set spec.window (pstdev ws)
  | _ => none

end Turn

theorem featureOf_append {spec : FeatureSpec} (h : spec.Fits int values.length) :
    featureOf int pstdev (before ++ values) spec = featureOf int pstdev values spec := by
  obtain ⟨-, n, hback, hn⟩ := h
  unfold FeatureSpec.lookBack at hback
  unfold featureOf
  dsimp only
  split
  · next hs =>
    rw [hs] at hback
    obtain rfl : 1 = n := by simpa using hback
    rw [List.getLast?_append_of_ne_nil _ (length_pos_iff.mp hn)]
  · next hs =>
    rw [hs] at hback
    obtain rfl : 2 = n := by simpa using hback
    rw [deltaPct_append hn]
  · next hs =>
    rw [hs] at hback
    rw [windowValues_append (by simpa using hback) hn]
  · next hs =>
    rw [hs] at hback
    rw [windowValues_append (by simpa using hback) hn]
  · rfl

theorem featureStep_get? {found next : Features × List QualityFlag} {spec : FeatureSpec}
    (h : featureStep int pstdev values found spec = some next) (hpoints : spec.minPoints ≤ values.length) :
    next.1.get? spec.id = (featureOf int pstdev values spec).or (found.1.get? spec.id) := by
  unfold featureStep at h
  dsimp only at h
  split at h
  · next hfresh =>
    cases h
    simp only [featureOf, hfresh]
    rfl
  · rw [if_neg (by omega)] at h
    split at h
    · next hs =>
      obtain ⟨v, hv, rfl⟩ := map_eq_some_iff.mp h
      simp only [featureOf, hs, hv]
      rw [Dict.get?_set_self]
      rfl
    · next hs =>
      simp only [featureOf, hs]
      cases hpct : deltaPct values with
      | none =>
        rw [hpct] at h
        cases h
        rfl
      | some pct =>
        rw [hpct] at h
        cases h
        rw [elim_some, Dict.get?_set_self]
        rfl
    · next hs =>
      obtain ⟨ws, hws, hset⟩ := bind_eq_some_iff.mp h
      simp only [featureOf, hs, hws]
      split at hset
      · cases hset
      · cases hset
        rw [Dict.get?_set_self]
        rfl
    · next hs =>
      obtain ⟨ws, hws, hset⟩ := bind_eq_some_iff.mp h
      simp only [featureOf, hs, hws]
      split at hset
      · cases hset
      · cases hset
        rw [Dict.get?_set_self]
        rfl
    · next hcurrent hdelta hmean hstd =>
      cases h
      unfold featureOf
      dsimp only
      split
      · next hs => exact absurd hs hcurrent
      · next hs => exact absurd hs hdelta
      · next hs => exact absurd hs hmean
      · next hs => exact absurd hs hstd
      · rfl

theorem foldlM_fits {specs : List FeatureSpec} (hfits : ∀ spec ∈ specs, spec.id = k → spec.Fits int values.length) :
    ∀ {found found' next next' : Features × List QualityFlag}, found'.1.get? k = found.1.get? k →
      specs.foldlM (featureStep int pstdev values) found = some next →
      specs.foldlM (featureStep int pstdev (before ++ values)) found' = some next' → next'.1.get? k = next.1.get? k := by
  induction specs with
  | nil =>
    intro found found' next next' h hnext hnext'
    cases hnext
    cases hnext'
    exact h
  | cons spec specs ih =>
    intro found found' next next' h hnext hnext'
    obtain ⟨turn, hturn, hrest⟩ := bind_eq_some_iff.mp hnext
    obtain ⟨turn', hturn', hrest'⟩ := bind_eq_some_iff.mp hnext'
    refine ih (fun spec' hspec' => hfits spec' (mem_cons_of_mem spec hspec')) ?_ hrest hrest'
    by_cases hid : spec.id = k
    · have hspec := hfits spec mem_cons_self hid
      have hlonger : spec.minPoints ≤ (before ++ values).length := by
        have := hspec.1
        rw [length_append]
        omega
      subst hid
      rw [featureStep_get? hturn hspec.1, featureStep_get? hturn' hlonger, featureOf_append hspec, h]
    · rw [(featureStep_delta (k := k) hturn).1 hid, (featureStep_delta (k := k) hturn').1 hid, h]

theorem featureStep_flags {found next : Features × List QualityFlag} {spec : FeatureSpec}
    (h : featureStep int pstdev values found spec = some next) : next.2 = [] ↔ found.2 = [] ∧ ¬ spec.Short values := by
  have hflagged : flagged .sparseHistory found.2 ≠ [] := by
    unfold flagged
    split
    · next hmem => exact ne_nil_of_mem hmem
    · simp
  unfold FeatureSpec.Short
  unfold featureStep at h
  dsimp only at h
  split at h
  · next hfresh =>
    cases h
    simp [hfresh]
  · next hfresh =>
    split at h
    · next hfew =>
      cases h
      simp [hfresh, hfew, hflagged]
    · next hfew =>
      split at h
      · next hs =>
        obtain ⟨v, -, rfl⟩ := map_eq_some_iff.mp h
        simp [hs, hfew]
      · next hs =>
        cases hpct : deltaPct values with
        | none =>
          rw [hpct] at h
          cases h
          simp [hs, hflagged]
        | some pct =>
          rw [hpct] at h
          cases h
          simp [hfew]
      · next hs =>
        obtain ⟨ws, -, hset⟩ := bind_eq_some_iff.mp h
        split at hset
        · cases hset
        · cases hset
          simp [hs, hfew]
      · next hs =>
        obtain ⟨ws, -, hset⟩ := bind_eq_some_iff.mp h
        split at hset
        · cases hset
        · cases hset
          simp [hs, hfew]
      · next hs _ _ =>
        cases h
        simp only [hfew, false_or]
        exact ⟨fun hnil => ⟨hnil, fun hshort => hs hshort.2.1⟩, fun hboth => hboth.1⟩

theorem foldlM_flags {specs : List FeatureSpec} : ∀ {found next : Features × List QualityFlag},
    specs.foldlM (featureStep int pstdev values) found = some next →
      (next.2 = [] ↔ found.2 = [] ∧ ∀ spec ∈ specs, ¬ spec.Short values) := by
  induction specs with
  | nil =>
    intro found next h
    cases h
    simp
  | cons spec specs ih =>
    intro found next h
    obtain ⟨turn, hturn, hrest⟩ := bind_eq_some_iff.mp h
    rw [ih hrest, featureStep_flags hturn, forall_mem_cons, and_assoc]

end SelericSwarm.BusinessState
