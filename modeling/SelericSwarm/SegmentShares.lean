import Mathlib.Algebra.BigOperators.Group.List.Basic
import Mathlib.Algebra.BigOperators.Ring.List
import Mathlib.Algebra.Order.Field.Basic
import Mathlib.Algebra.Order.Field.Rat
import Mathlib.Tactic.FieldSimp
import Mathlib.Tactic.Linarith
import Mathlib.Tactic.Ring
import SelericSwarm.StableSorts

/-! The parts of a total: the large ones listed, the small ones folded into one. -/
namespace SelericSwarm.Breakdown
open StableSorts List

/-! `policy_config.py`. -/

def minSegmentShare : ℚ := 1 / 100
def maxSegmentsReported : ℕ := 20
def contributionReconciliationTolerance : ℚ := 1 / 200

/-! `breakdown.py`. -/

structure Segment where
  label : String
  value : Option ℚ
  ref : String

/-- A segment with a value. -/
structure Measured where
  label : String
  value : ℚ
  ref : String
  deriving DecidableEq

structure Share where
  label : String
  value : ℚ
  share : ℚ
  ref : String
  deriving DecidableEq

structure ShareResult where
  shares : List Share
  total : ℚ
  reconciled : Option Bool
  otherCount : ℕ
  otherValue : ℚ

def measured (segments : List Segment) : List Measured :=
  segments.filterMap fun s => s.value.map fun value => { label := s.label, value, ref := s.ref }

/-- What the loop has kept and folded. -/
structure Folding where
  kept : List Share := []
  otherCount : ℕ := 0
  otherValue : ℚ := 0

def Measured.toShare (total : ℚ) (s : Measured) : Share where
  label := s.label
  value := s.value
  share := s.value / total
  ref := s.ref

def Folding.step (total : ℚ) (acc : Folding) (s : Measured) : Folding :=
  if |s.value / total| < minSegmentShare ∨ maxSegmentsReported ≤ acc.kept.length then
    { acc with otherCount := acc.otherCount + 1, otherValue := acc.otherValue + s.value }
  else { acc with kept := acc.kept ++ [s.toShare total] }

/-- `sorted(measured, key=lambda s: abs(float(s.value)), reverse=True)` -/
def ranked (ms : List Measured) : List Measured := sortBy (fun s => -|s.value|) ms

def total (segments : List Segment) (independentTotal : Option ℚ) : ℚ :=
  independentTotal.getD ((measured segments).map Measured.value).sum

def reconciled (segments : List Segment) (independentTotal : Option ℚ) : Option Bool :=
  independentTotal.map fun independent =>
    let scale := if |independent| = 0 then 1 else |independent|
    decide (|((measured segments).map Measured.value).sum - independent| / scale ≤ contributionReconciliationTolerance)

def shares (segments : List Segment) (independentTotal : Option ℚ := none) : Option ShareResult :=
  if measured segments = [] then none
  else if total segments independentTotal = 0 then
    some { shares := [], total := 0, reconciled := reconciled segments independentTotal, otherCount := 0, otherValue := 0 }
  else
    let folding := (ranked (measured segments)).foldl (Folding.step (total segments independentTotal)) {}
    some {
      shares := folding.kept
      total := total segments independentTotal
      reconciled := reconciled segments independentTotal
      otherCount := folding.otherCount
      otherValue := folding.otherValue }

/-! The loop keeps the first segments and folds the others. -/

theorem ranked_perm (ms : List Measured) : (ranked ms).Perm ms := sortBy_perm _ ms

theorem ranked_pairwise (ms : List Measured) : (ranked ms).Pairwise fun a b => |b.value| ≤ |a.value| :=
  (sortBy_pairwise (fun s : Measured => -|s.value|) ms).imp fun h => neg_le_neg_iff.mp h

/-- A segment too small to be listed. -/
def Small (total : ℚ) (s : Measured) : Prop := |s.value / total| < minSegmentShare

instance (total : ℚ) (s : Measured) : Decidable (Small total s) := inferInstanceAs (Decidable (_ < _))

theorem Small.of_le {total : ℚ} {s s' : Measured} (h : Small total s) (hle : |s'.value| ≤ |s.value|) : Small total s' := by
  have hsmaller : |s'.value / total| ≤ |s.value / total| := by
    rw [abs_div, abs_div]
    exact div_le_div_of_nonneg_right hle (abs_nonneg _)
  exact lt_of_le_of_lt hsmaller h

/-- How many segments are listed. -/
def keptCount (total : ℚ) (ms : List Measured) : ℕ := min (ms.countP fun s => ¬Small total s) maxSegmentsReported

theorem foldl_folded (total : ℚ) (rest : List Measured) : ∀ acc : Folding,
    ((∀ s ∈ rest, Small total s) ∨ maxSegmentsReported ≤ acc.kept.length) →
    rest.foldl (Folding.step total) acc =
      { acc with otherCount := acc.otherCount + rest.length, otherValue := acc.otherValue + (rest.map Measured.value).sum } := by
  induction rest with
  | nil =>
    intro acc _
    simp
  | cons s rest ih =>
    intro acc h
    have hfolded : |s.value / total| < minSegmentShare ∨ maxSegmentsReported ≤ acc.kept.length :=
      h.imp_left fun hsmall => hsmall s mem_cons_self
    have hnext := h.imp_left fun hsmall s hs => hsmall s (mem_cons_of_mem _ hs)
    have hrest := ih { acc with otherCount := acc.otherCount + 1, otherValue := acc.otherValue + s.value } hnext
    rw [foldl_cons, Folding.step, if_pos hfolded, hrest, length_cons, map_cons, sum_cons]
    simp only [Folding.mk.injEq, true_and]
    exact ⟨by omega, by ring⟩

theorem foldl_ranked (total : ℚ) (ms : List Measured) : ∀ acc : Folding,
    ms.Pairwise (fun a b => |b.value| ≤ |a.value|) → acc.kept.length ≤ maxSegmentsReported →
    ∃ n, n = min (ms.countP fun s => ¬Small total s) (maxSegmentsReported - acc.kept.length) ∧
      ms.foldl (Folding.step total) acc = {
        kept := acc.kept ++ (ms.take n).map (Measured.toShare total)
        otherCount := acc.otherCount + (ms.drop n).length
        otherValue := acc.otherValue + ((ms.drop n).map Measured.value).sum } := by
  induction ms with
  | nil =>
    intro acc _ _
    exact ⟨0, by simp, by simp⟩
  | cons s ms ih =>
    intro acc hsorted hroom
    by_cases hsmall : Small total s
    · have hall : ∀ s' ∈ s :: ms, Small total s' := by
        intro s' hs'
        obtain rfl | hs' := mem_cons.mp hs'
        · exact hsmall
        · exact hsmall.of_le (rel_of_pairwise_cons hsorted hs')
      have hnone : (s :: ms).countP (fun s => ¬Small total s) = 0 := by
        rw [countP_eq_zero]
        intro s' hs'
        simpa using hall s' hs'
      refine ⟨0, by rw [hnone, Nat.zero_min], ?_⟩
      rw [foldl_folded total (s :: ms) acc (Or.inl hall)]
      simp
    · by_cases hfull : acc.kept.length = maxSegmentsReported
      · refine ⟨0, by rw [hfull, Nat.sub_self, Nat.min_zero], ?_⟩
        rw [foldl_folded total (s :: ms) acc (Or.inr hfull.ge)]
        simp
      · have hstep : Folding.step total acc s = { acc with kept := acc.kept ++ [s.toShare total] } := by
          rw [Folding.step, if_neg]
          intro hfolded
          obtain hfolded | hfolded := hfolded
          · exact hsmall hfolded
          · omega
        have hlength : (acc.kept ++ [s.toShare total]).length = acc.kept.length + 1 := by simp
        obtain ⟨n, hn, hrest⟩ := ih { acc with kept := acc.kept ++ [s.toShare total] } hsorted.tail (by
          dsimp only
          omega)
        dsimp only at hn hrest
        have hcount : (s :: ms).countP (fun s => ¬Small total s) = ms.countP (fun s => ¬Small total s) + 1 :=
          countP_cons_of_pos (by simpa using hsmall)
        refine ⟨n + 1, by omega, ?_⟩
        rw [foldl_cons, hstep, hrest, take_succ_cons, drop_succ_cons, map_cons, append_assoc,
          singleton_append]

variable {segments segments' : List Segment} {ms' : List Measured}

theorem measured_perm (h : segments.Perm segments') : (measured segments).Perm (measured segments') := h.filterMap _

theorem total_perm (h : segments.Perm segments') (independentTotal : Option ℚ) :
    total segments' independentTotal = total segments independentTotal := by
  rw [total, total, ((measured_perm h).map Measured.value).sum_eq]

def listed (total : ℚ) (ms : List Measured) : List Measured := (ranked ms).take (keptCount total ms)

/-- The segments behind them. -/
def folded (total : ℚ) (ms : List Measured) : List Measured := (ranked ms).drop (keptCount total ms)

section
variable (total : ℚ) (ms : List Measured)
include total ms

theorem listed_append_folded : listed total ms ++ folded total ms = ranked ms :=
  take_append_drop _ _

theorem length_listed_le : (listed total ms).length ≤ maxSegmentsReported :=
  (length_take_le _ _).trans (Nat.min_le_right _ _)

theorem length_listed_folded : (listed total ms).length + (folded total ms).length = ms.length := by
  rw [← length_append, listed_append_folded, (ranked_perm ms).length_eq]

theorem sum_listed_folded :
    ((listed total ms).map Measured.value).sum + ((folded total ms).map Measured.value).sum = (ms.map Measured.value).sum := by
  rw [← sum_append, ← map_append, listed_append_folded, ((ranked_perm ms).map Measured.value).sum_eq]

theorem folded_le_listed : ∀ s ∈ listed total ms, ∀ s' ∈ folded total ms, |s'.value| ≤ |s.value| := by
  have hsorted := ranked_pairwise ms
  rw [← listed_append_folded total ms] at hsorted
  exact (pairwise_append.mp hsorted).2.2

end

section Result
variable {segments : List Segment} {independentTotal : Option ℚ}

theorem shares_eq (hne : measured segments ≠ []) (ht : total segments independentTotal ≠ 0) :
    shares segments independentTotal = some {
      shares := (listed (total segments independentTotal) (measured segments)).map
        (Measured.toShare (total segments independentTotal))
      total := total segments independentTotal
      reconciled := reconciled segments independentTotal
      otherCount := (folded (total segments independentTotal) (measured segments)).length
      otherValue := ((folded (total segments independentTotal) (measured segments)).map Measured.value).sum } := by
  obtain ⟨n, hn, hfold⟩ := foldl_ranked (total segments independentTotal) (ranked (measured segments)) {}
    (ranked_pairwise _) (Nat.zero_le _)
  have hcount : n = keptCount (total segments independentTotal) (measured segments) := by
    rw [hn, (ranked_perm _).countP_eq]
    rfl
  rw [shares, if_neg hne, if_neg ht]
  dsimp only
  rw [hfold, hcount]
  simp [listed, folded]

theorem shares_of_total (hne : measured segments ≠ []) (ht : total segments independentTotal = 0) :
    shares segments independentTotal = some {
      shares := []
      total := 0
      reconciled := reconciled segments independentTotal
      otherCount := 0
      otherValue := 0 } := by rw [shares, if_neg hne, if_pos ht]

theorem shares_of_total_ne {r : ShareResult} (h : shares segments independentTotal = some r) (hr : r.total ≠ 0) :
    measured segments ≠ [] ∧ total segments independentTotal ≠ 0 := by
  unfold shares at h
  split at h
  · cases h
  · next hne =>
    split at h
    · cases h
      exact absurd rfl hr
    · next ht => exact ⟨hne, ht⟩

end Result

theorem ranked_magnitudes {ms : List Measured} (h : ms.Perm ms') :
    (ranked ms').map (fun s => |s.value|) = (ranked ms).map fun s => |s.value| := by
  have hperm : (ranked ms').Perm (ranked ms) := (ranked_perm ms').trans (h.symm.trans (ranked_perm ms).symm)
  refine (hperm.map _).eq_of_pairwise (fun a b _ _ hab hba => le_antisymm hba hab) ?_ ?_
  · exact pairwise_map.mpr (ranked_pairwise ms')
  · exact pairwise_map.mpr (ranked_pairwise ms)

theorem keptCount_perm (total : ℚ) {ms : List Measured} (h : ms.Perm ms') :
    keptCount total ms' = keptCount total ms := by rw [keptCount, keptCount, h.countP_eq]

theorem ranked_values {ms : List Measured} (h : ms.Perm ms') (n : ℕ)
    (hms : ∀ s ∈ (ranked ms).take n, ∀ s' ∈ ms, |s'.value| = |s.value| → s'.value = s.value) :
    ((ranked ms').take n).map Measured.value = ((ranked ms).take n).map Measured.value := by
  have hlength : (ranked ms').length = (ranked ms).length := by
    rw [(ranked_perm ms').length_eq, (ranked_perm ms).length_eq, h.length_eq]
  apply ext_getElem
  · rw [length_map, length_map, length_take, length_take, hlength]
  · intro i hi' hi
    rw [length_map, length_take] at hi hi'
    have hmagnitude : ((ranked ms').map fun s => |s.value|)[i]? = ((ranked ms).map fun s => |s.value|)[i]? := by
      rw [ranked_magnitudes h]
    rw [List.getElem?_eq_getElem (by rw [length_map]; omega),
      List.getElem?_eq_getElem (by rw [length_map]; omega), Option.some_inj, getElem_map, getElem_map]
      at hmagnitude
    rw [getElem_map, getElem_map, getElem_take, getElem_take]
    apply hms _ _ _ _ hmagnitude
    · rw [← getElem_take (h := by rw [length_take]; omega)]
      exact getElem_mem _
    · exact h.mem_iff.mpr ((ranked_perm ms').mem_iff.mp (getElem_mem _))

/-- What does not change with the order of the segments. -/
structure SameAccount (r r' : ShareResult) : Prop where
  total : r'.total = r.total
  reconciled : r'.reconciled = r.reconciled
  otherCount : r'.otherCount = r.otherCount
  magnitudes : r'.shares.map (fun k => |k.value|) = r.shares.map fun k => |k.value|

/-- And the signed numbers. -/
structure SameNumbers (r r' : ShareResult) : Prop extends SameAccount r r' where
  values : r'.shares.map Share.value = r.shares.map Share.value
  shares : r'.shares.map Share.share = r.shares.map Share.share
  otherValue : r'.otherValue = r.otherValue

theorem shares_perm (h : segments.Perm segments') {independentTotal : Option ℚ} {r : ShareResult}
    (hr : shares segments independentTotal = some r) :
    ∃ r', shares segments' independentTotal = some r' ∧ SameAccount r r' ∧
      ((∀ k ∈ r.shares, ∀ s ∈ measured segments, |s.value| = |k.value| → s.value = k.value) → SameNumbers r r') := by
  have hms := measured_perm h
  have hsum : total segments' independentTotal = total segments independentTotal := total_perm h independentTotal
  have hreconciled : reconciled segments' independentTotal = reconciled segments independentTotal := by
    rw [reconciled, reconciled, (hms.map Measured.value).sum_eq]
  have hne : measured segments ≠ [] := by
    intro hnone
    rw [shares, if_pos hnone] at hr
    cases hr
  have hne' : measured segments' ≠ [] := fun hnone => hne (perm_nil.mp (hnone ▸ hms))
  by_cases ht : total segments independentTotal = 0
  · rw [shares_of_total hne ht] at hr
    cases hr
    refine ⟨_, shares_of_total hne' (hsum.trans ht), ?_⟩
    rw [hreconciled]
    exact ⟨⟨rfl, rfl, rfl, rfl⟩, fun _ => ⟨⟨rfl, rfl, rfl, rfl⟩, rfl, rfl, rfl⟩⟩
  · rw [shares_eq hne ht] at hr
    cases hr
    refine ⟨_, shares_eq hne' (by rwa [hsum]), ?_⟩
    rw [hsum, hreconciled]
    set t := total segments independentTotal with htotal
    have hcount : (folded t (measured segments')).length = (folded t (measured segments)).length := by
      rw [folded, folded, keptCount_perm t hms, length_drop, length_drop, (ranked_perm _).length_eq,
        (ranked_perm _).length_eq, hms.length_eq]
    have hmagnitudes : (((listed t (measured segments')).map (Measured.toShare t)).map fun k => |k.value|) =
        ((listed t (measured segments)).map (Measured.toShare t)).map fun k => |k.value| := by
      have hranked : (listed t (measured segments')).map (fun s => |s.value|) =
          (listed t (measured segments)).map fun s => |s.value| := by
        rw [listed, listed, keptCount_perm t hms, map_take, map_take, ranked_magnitudes hms]
      rw [List.map_map, List.map_map]
      exact hranked
    refine ⟨⟨rfl, rfl, hcount, hmagnitudes⟩, fun hunopposed => ?_⟩
    have hvalues : (listed t (measured segments')).map Measured.value = (listed t (measured segments)).map Measured.value := by
      rw [listed, keptCount_perm t hms]
      refine ranked_values hms _ fun s hs s' hs' hmagnitude => ?_
      exact hunopposed (s.toShare t) (List.mem_map_of_mem hs) s' hs' hmagnitude
    refine ⟨⟨rfl, rfl, hcount, hmagnitudes⟩, ?_, ?_, ?_⟩
    · rw [List.map_map, List.map_map]
      exact hvalues
    · have hdivided := congrArg (List.map (· / t)) hvalues
      rw [List.map_map, List.map_map] at hdivided
      rw [List.map_map, List.map_map]
      exact hdivided
    · have hall := sum_listed_folded t (measured segments)
      have hall' := sum_listed_folded t (measured segments')
      rw [hvalues, ← (hms.map Measured.value).sum_eq] at hall'
      dsimp only
      linarith

/-- Every measured segment is listed or folded, once, the largest listed, and the shares are of the total. -/
theorem share_laws (segments : List Segment) (independentTotal : Option ℚ) {r : ShareResult}
    (hr : shares segments independentTotal = some r) :
    (r.total ≠ 0 →
      (r.shares.map Share.value).sum + r.otherValue = ((measured segments).map Measured.value).sum ∧
      r.shares.length + r.otherCount = (measured segments).length ∧
      (∀ k ∈ r.shares, k.share * r.total = k.value) ∧
      r.shares.length ≤ maxSegmentsReported ∧
      (∃ first rest, ranked (measured segments) = first ++ rest ∧ r.shares = first.map (Measured.toShare r.total) ∧
        r.otherCount = rest.length ∧ r.otherValue = (rest.map Measured.value).sum ∧
        ∀ k ∈ r.shares, ∀ s ∈ rest, |s.value| ≤ |k.value|) ∧
      (independentTotal = none → (r.shares.map Share.share).sum + r.otherValue / r.total = 1)) ∧
    ∀ segments', segments.Perm segments' → ∃ r', shares segments' independentTotal = some r' ∧ SameAccount r r' ∧
      ((∀ k ∈ r.shares, ∀ s ∈ measured segments, |s.value| = |k.value| → s.value = k.value) → SameNumbers r r') := by
  refine ⟨fun htotal => ?_, fun segments' h => shares_perm h hr⟩
  obtain ⟨hne, ht⟩ := shares_of_total_ne hr htotal
  rw [shares_eq hne ht] at hr
  cases hr
  dsimp only at htotal ⊢
  set t := total segments independentTotal with htotal_eq
  have hvalues : ((listed t (measured segments)).map (Measured.toShare t)).map Share.value =
      (listed t (measured segments)).map Measured.value := by
    rw [List.map_map]
    rfl
  have hshares : (((listed t (measured segments)).map (Measured.toShare t)).map Share.share).sum =
      ((listed t (measured segments)).map Measured.value).sum / t := by
    rw [List.map_map, div_eq_mul_inv, ← sum_map_mul_right]
    rfl
  refine ⟨?_, ?_, ?_, ?_, ⟨_, _, (listed_append_folded t _).symm, rfl, rfl, rfl, ?_⟩, ?_⟩
  · rw [hvalues, sum_listed_folded]
  · rw [length_map, length_listed_folded]
  · intro k hk
    obtain ⟨s, _, rfl⟩ := List.mem_map.mp hk
    exact div_mul_cancel₀ s.value htotal
  · rw [length_map]
    exact length_listed_le t _
  · intro k hk s' hs'
    obtain ⟨s, hs, rfl⟩ := List.mem_map.mp hk
    exact folded_le_listed t _ s hs s' hs'
  · intro hindependent
    have hchildren : ((measured segments).map Measured.value).sum = t := by
      rw [htotal_eq, hindependent]
      rfl
    rw [hshares, ← add_div, sum_listed_folded, hchildren, div_self htotal]

/-- Three channels, one of them unmeasured. -/
def channels : List Segment := [⟨"Meta", some 3, "a"⟩, ⟨"Google", none, "b"⟩, ⟨"Email", some 1, "c"⟩]

theorem channels_shared : ∃ r, shares channels = some r ∧ r.total = 4 ∧ r.shares.length + r.otherCount = 2 ∧
    (r.shares.map Share.value).sum + r.otherValue = 4 ∧ (r.shares.map Share.share).sum + r.otherValue / r.total = 1 := by
  have htotal : total channels none = 4 := by
    change ((3 : ℚ) + (1 + 0)) = 4
    norm_num
  have hr := @shares_eq channels none (by decide) (by
    rw [htotal]
    norm_num)
  refine ⟨_, hr, htotal, ?_⟩
  obtain ⟨hsum, hcount, _, _, _, hone⟩ := (share_laws channels none hr).1 (by
    dsimp only
    rw [htotal]
    norm_num)
  refine ⟨hcount, hsum.trans ?_, hone rfl⟩
  exact htotal

/-- One more channel than are listed, the last ones losing what the first ones earn. -/
def returns : List Segment := List.replicate 11 ⟨"sold", some 1, "a"⟩ ++ List.replicate 10 ⟨"returned", some (-1), "b"⟩

/-- Twenty-one parts of one size: the last one is folded. -/
theorem otherValue_of_units (hunits : ∀ s ∈ measured segments, |s.value| = 1)
    (hlength : (measured segments).length = 21) (ht : total segments none = 1) :
    (shares segments).map ShareResult.otherValue = some (((measured segments).drop 20).map Measured.value).sum := by
  have hne : measured segments ≠ [] := by
    intro hnone
    rw [hnone] at hlength
    cases hlength
  have hranked : ranked (measured segments) = measured segments := by
    refine sortBy_of_pairwise _ (pairwise_of_forall_mem_list fun a ha b hb => ?_)
    rw [hunits a ha, hunits b hb]
  have hlarge : ∀ s ∈ measured segments, ¬Small 1 s := by
    intro s hs hsmall
    rw [Small, div_one, hunits s hs, minSegmentShare] at hsmall
    norm_num at hsmall
  have hcount : keptCount 1 (measured segments) = 20 := by
    rw [keptCount, countP_eq_length.mpr (fun s hs => decide_eq_true (hlarge s hs)), hlength]
    rfl
  rw [shares_eq hne (by rw [ht]; norm_num), ht, Option.map_some]
  dsimp only
  rw [folded, hcount, hranked]

/-- In order of magnitude all are equal: which one is folded is which one is last. -/
theorem returns_order_counts : ¬∀ segments segments' : List Segment, segments.Perm segments' →
    (shares segments).map ShareResult.otherValue = (shares segments').map ShareResult.otherValue := by
  intro h
  have hreversed := h returns returns.reverse (reverse_perm _).symm
  have hunits : ∀ ms ∈ [measured returns, measured returns.reverse], ∀ s ∈ ms, |s.value| = 1 := by
    intro ms hms s hs
    have hvalue : s.value = 1 ∨ s.value = -1 := by
      revert s
      revert ms
      decide +kernel
    obtain hvalue | hvalue := hvalue
    · rw [hvalue, abs_one]
    · rw [hvalue, abs_neg, abs_one]
  rw [otherValue_of_units (hunits _ (by simp)) (by decide +kernel) (by decide +kernel),
    otherValue_of_units (hunits _ (by simp)) (by decide +kernel) (by decide +kernel)] at hreversed
  revert hreversed
  decide +kernel

end SelericSwarm.Breakdown
