import SelericSwarm.SegmentContributions

/-! Segments paired by their labels and listed by their size, in any order of the segments. -/
namespace SelericSwarm.Breakdown
open Keyed StableSorts List Option

/-! Pairs of segments. -/

def pairs (as bs : List Measured) : List (Measured × Measured) :=
  as.filterMap fun a => ((Dict.group Measured.label bs a.label).getLast?).map (Prod.mk a)

theorem paired_eq (periodA periodB : List Segment) : paired periodA periodB = pairs (measured periodA) (measured periodB) := by
  refine filterMap_congr fun a _ => ?_
  rw [Dict.get?_indexed]

variable {as bs ms ms' : List Measured} {label : String}

theorem mem_pairs {a b : Measured} :
    (a, b) ∈ pairs as bs ↔ a ∈ as ∧ (Dict.group Measured.label bs a.label).getLast? = some b := by
  rw [pairs, mem_filterMap]
  constructor
  · intro ⟨a', ha', h⟩
    obtain ⟨b', hb', hpair⟩ := map_eq_some_iff.mp h
    cases hpair
    exact ⟨ha', hb'⟩
  · intro ⟨ha, hb⟩
    exact ⟨a, ha, by rw [hb, map_some]⟩

theorem mem_group {s : Measured} : s ∈ Dict.group Measured.label ms label ↔ s ∈ ms ∧ s.label = label := by
  rw [Dict.group, mem_filter, decide_eq_true_eq]

theorem getLast?_group_isSome :
    (Dict.group Measured.label ms label).getLast?.isSome ↔ label ∈ ms.map Measured.label := by
  rw [List.getLast?_isSome, List.mem_map]
  constructor
  · intro hne
    obtain ⟨s, hs⟩ := exists_mem_of_ne_nil _ hne
    exact ⟨s, (mem_group.mp hs).1, (mem_group.mp hs).2⟩
  · intro ⟨s, hs, hlabel⟩
    exact ne_nil_of_mem (mem_group.mpr ⟨hs, hlabel⟩)

/-- The segments with a label among others. -/
def common (as bs : List Measured) : List Measured := as.filter fun a => a.label ∈ bs.map Measured.label

theorem mem_common {a : Measured} : a ∈ common as bs ↔ a ∈ as ∧ a.label ∈ bs.map Measured.label := by
  rw [common, mem_filter, decide_eq_true_eq]

theorem pairs_fst (as bs : List Measured) : (pairs as bs).map Prod.fst = common as bs := by
  rw [pairs, map_filterMap, common, ← filterMap_eq_filter]
  refine filterMap_congr fun a _ => ?_
  rw [Option.map_map]
  by_cases h : a.label ∈ bs.map Measured.label
  · obtain ⟨b, hb⟩ := isSome_iff_exists.mp (getLast?_group_isSome.mpr h)
    rw [hb, Option.guard, if_pos (decide_eq_true h)]
    rfl
  · rw [not_isSome_iff_eq_none.mp (mt getLast?_group_isSome.mp h), Option.guard, if_neg (by simpa using h)]
    rfl

theorem label_of_mem_pairs {pair : Measured × Measured} (h : pair ∈ pairs as bs) :
    pair.1 ∈ common as bs ∧ pair.2 ∈ common bs as ∧ pair.2.label = pair.1.label := by
  obtain ⟨a, b⟩ := pair
  obtain ⟨ha, hb⟩ := mem_pairs.mp h
  obtain ⟨hmem, hlabel⟩ := mem_group.mp (mem_of_getLast? hb)
  refine ⟨mem_common.mpr ⟨ha, List.mem_map.mpr ⟨b, hmem, hlabel⟩⟩, mem_common.mpr ⟨hmem, ?_⟩, hlabel⟩
  exact List.mem_map.mpr ⟨a, ha, hlabel.symm⟩

def values (pair : Measured × Measured) : ℚ × ℚ := (pair.1.value, pair.2.value)

def valuePairs (as bs : List Measured) : List (ℚ × ℚ) := (pairs as bs).map values

theorem contributions_rows (periodA periodB : List Segment) : (contributions periodA periodB).1 =
    sortBy (fun c => -|c.delta|) ((paired periodA periodB).map (contribution (totalDelta (paired periodA periodB)))) := by
  unfold contributions
  dsimp only
  split
  · next hnone => rw [hnone, map_nil, sortBy, mergeSort_nil]
  · rfl

theorem contributions_total (periodA periodB : List Segment) :
    (contributions periodA periodB).2 = totalDelta (paired periodA periodB) := by
  unfold contributions
  dsimp only
  split
  · next hnone =>
    rw [hnone]
    rfl
  · rfl

theorem contributions_perm (periodA periodB : List Segment) : (contributions periodA periodB).1.Perm
    ((paired periodA periodB).map (contribution (totalDelta (paired periodA periodB)))) := by
  rw [contributions_rows]
  exact sortBy_perm _ _

/-- What an account of a change is to say. -/
structure Moved (periodA periodB : List Segment) : Prop where
  total : (contributions periodA periodB).2 = ((contributions periodA periodB).1.map fun c => c.valueA - c.valueB).sum
  labels : ((contributions periodA periodB).1.map Contribution.label).Nodup ∧
    ∀ label, label ∈ (contributions periodA periodB).1.map Contribution.label ↔
      label ∈ (measured periodA).map Measured.label ∧ label ∈ (measured periodB).map Measured.label
  values : ∀ c ∈ (contributions periodA periodB).1, c.delta = c.valueA - c.valueB ∧
    (∃ s ∈ measured periodA, s.label = c.label ∧ s.value = c.valueA) ∧
    ∃ s ∈ measured periodB, s.label = c.label ∧ s.value = c.valueB
  shares : (contributions periodA periodB).2 ≠ 0 → ((contributions periodA periodB).1.map Contribution.shareOfChange).sum = 1

theorem moved_iff (periodA periodB : List Segment) :
    Moved periodA periodB ↔ ((common (measured periodA) (measured periodB)).map Measured.label).Nodup := by
  have hperm := contributions_perm periodA periodB
  have htotal := contributions_total periodA periodB
  have hlabels : ((contributions periodA periodB).1.map Contribution.label).Perm
      ((common (measured periodA) (measured periodB)).map Measured.label) := by
    refine (hperm.map Contribution.label).trans (Perm.of_eq ?_)
    rw [← pairs_fst, ← paired_eq, List.map_map, List.map_map]
    rfl
  refine ⟨fun h => hlabels.nodup_iff.mp h.labels.1, fun h => ⟨?_, ⟨hlabels.nodup_iff.mpr h, fun label => ?_⟩, ?_, ?_⟩⟩
  · rw [htotal, (hperm.map _).sum_eq, List.map_map]
    rfl
  · rw [hlabels.mem_iff, List.mem_map]
    constructor
    · intro ⟨s, hs, hlabel⟩
      obtain ⟨hmem, hother⟩ := mem_common.mp hs
      rw [← hlabel]
      exact ⟨List.mem_map_of_mem hmem, hother⟩
    · intro ⟨hfirst, hsecond⟩
      obtain ⟨s, hs, hlabel⟩ := List.mem_map.mp hfirst
      exact ⟨s, mem_common.mpr ⟨hs, by rwa [hlabel]⟩, hlabel⟩
  · intro c hc
    obtain ⟨pair, hpair, rfl⟩ := List.mem_map.mp (hperm.mem_iff.mp hc)
    rw [paired_eq] at hpair
    obtain ⟨hfirst, hsecond, hlabel⟩ := label_of_mem_pairs hpair
    exact ⟨rfl, ⟨pair.1, (mem_common.mp hfirst).1, rfl, rfl⟩, pair.2, (mem_common.mp hsecond).1, hlabel, rfl⟩
  · intro hne
    rw [htotal] at hne
    have hshares : ((paired periodA periodB).map (contribution (totalDelta (paired periodA periodB)))).map
        Contribution.shareOfChange = (paired periodA periodB).map fun pair =>
          delta pair * (totalDelta (paired periodA periodB))⁻¹ := by
      rw [List.map_map]
      refine map_congr_left fun pair _ => ?_
      rw [Function.comp_apply, contribution, if_pos hne, div_eq_mul_inv]
    rw [(hperm.map Contribution.shareOfChange).sum_eq, hshares, sum_map_mul_right]
    exact mul_inv_cancel₀ hne

/-! Orders of the segments. -/

/-- In the second period, the readings of a common label have one value. -/
def Settled (as bs : List Measured) : Prop := ∀ b ∈ common bs as, ∀ b' ∈ common bs as, b.label = b'.label → b.value = b'.value

def lastValue (bs : List Measured) (label : String) : Option ℚ :=
  (Dict.group Measured.label bs label).getLast?.map Measured.value

theorem valuePairs_eq (as bs : List Measured) :
    valuePairs as bs = as.filterMap fun a => (lastValue bs a.label).map (Prod.mk a.value) := by
  rw [valuePairs, pairs, map_filterMap]
  refine filterMap_congr fun a _ => ?_
  rw [lastValue, Option.map_map, Option.map_map]
  rfl

theorem lastValue_perm {bs' : List Measured} (h : bs'.Perm bs)
    (hone : ∀ b ∈ bs, ∀ b' ∈ bs, b.label = label → b'.label = label → b.value = b'.value) :
    lastValue bs' label = lastValue bs label := by
  have hgroup : (Dict.group Measured.label bs' label).Perm (Dict.group Measured.label bs label) := h.filter _
  rw [lastValue, lastValue]
  cases hlast : (Dict.group Measured.label bs label).getLast? with
  | none =>
    rw [List.getLast?_eq_none_iff] at hlast
    rw [hlast] at hgroup
    rw [hgroup.eq_nil]
    rfl
  | some b =>
    cases hlast' : (Dict.group Measured.label bs' label).getLast? with
    | none =>
      rw [List.getLast?_eq_none_iff] at hlast'
      rw [hlast'] at hgroup
      rw [hgroup.symm.eq_nil] at hlast
      cases hlast
    | some b' =>
      obtain ⟨hb, hlabel⟩ := mem_group.mp (mem_of_getLast? hlast)
      obtain ⟨hb', hlabel'⟩ := mem_group.mp (hgroup.mem_iff.mp (mem_of_getLast? hlast'))
      rw [map_some, map_some, hone b hb b' hb' hlabel hlabel']

theorem valuePairs_perm {as' bs' : List Measured} (ha : as'.Perm as) (hb : bs'.Perm bs) (h : Settled as bs) :
    (valuePairs as' bs').Perm (valuePairs as bs) := by
  rw [valuePairs_eq, valuePairs_eq]
  refine (ha.filterMap _).trans (Perm.of_eq (filterMap_congr fun a ha => ?_))
  rw [lastValue_perm hb]
  intro b hb b' hb' hlabel hlabel'
  have hcommon : a.label ∈ as.map Measured.label := List.mem_map_of_mem ha
  refine h b (mem_common.mpr ⟨hb, ?_⟩) b' (mem_common.mpr ⟨hb', ?_⟩) (hlabel.trans hlabel'.symm)
  · rwa [hlabel]
  · rwa [hlabel']

/-- Where only one label's value changes, the sums differ by it, as often as the label comes. -/
theorem sum_lastValues {f g : String → Option ℚ} {v w : ℚ} (hf : f label = some v) (hg : g label = some w)
    (hothers : ∀ other, other ≠ label → f other = g other) (as : List Measured) :
    (as.filterMap fun a => f a.label).sum - (as.filterMap fun a => g a.label).sum =
      ((Dict.group Measured.label as label).length : ℚ) * (v - w) := by
  induction as with
  | nil => simp [Dict.group]
  | cons a as ih =>
    by_cases ha : a.label = label
    · rw [filterMap_cons_some (b := v) (by rw [ha, hf]), filterMap_cons_some (b := w) (by rw [ha, hg]),
        Dict.group_cons_of_eq _ as ha, length_cons, sum_cons, sum_cons]
      push_cast
      linarith
    · rw [Dict.group_cons_of_ne _ as ha, ← ih]
      have hsame := hothers a.label ha
      cases hvalue : g a.label with
      | none => rw [filterMap_cons_none (f := fun a : Measured => f a.label) (hsame.trans hvalue),
          filterMap_cons_none (f := fun a : Measured => g a.label) hvalue]
      | some u =>
        rw [filterMap_cons_some (f := fun a : Measured => f a.label) (hsame.trans hvalue),
          filterMap_cons_some (f := fun a : Measured => g a.label) hvalue, sum_cons, sum_cons]
        ring

theorem snd_valuePairs (as bs : List Measured) :
    (valuePairs as bs).map Prod.snd = as.filterMap fun a => lastValue bs a.label := by
  rw [valuePairs_eq, map_filterMap]
  refine filterMap_congr fun a _ => ?_
  rw [Option.map_map]
  cases lastValue bs a.label <;> rfl

theorem settled_of_valuePairs (h : ∀ bs', bs'.Perm bs → (valuePairs as bs').Perm (valuePairs as bs)) :
    Settled as bs := by
  intro b hb b' hb' hlabel
  obtain ⟨hmem, hcommon⟩ := mem_common.mp hb
  obtain ⟨hmem', -⟩ := mem_common.mp hb'
  obtain ⟨bs₁, hperm₁, hlast₁, hothers₁⟩ := Dict.exists_last hmem
  obtain ⟨bs₂, hperm₂, hlast₂, hothers₂⟩ := Dict.exists_last hmem'
  have hsums := (((h bs₁ hperm₁).trans (h bs₂ hperm₂).symm).map Prod.snd).sum_eq
  rw [snd_valuePairs, snd_valuePairs] at hsums
  have hvalue₁ : lastValue bs₁ b.label = some b.value := by
    rw [lastValue, Dict.group, hlast₁ _ (decide_eq_true rfl), map_some]
  have hvalue₂ : lastValue bs₂ b.label = some b'.value := by
    rw [lastValue, Dict.group, hlast₂ _ (decide_eq_true hlabel.symm), map_some]
  have hothers : ∀ other, other ≠ b.label → lastValue bs₁ other = lastValue bs₂ other := by
    intro other hne
    rw [lastValue, lastValue, Dict.group, Dict.group, hothers₁ _ (decide_eq_false (Ne.symm hne)),
      hothers₂ _ (decide_eq_false fun hsame => hne (hsame.symm.trans hlabel.symm))]
  have hdifference := sum_lastValues hvalue₁ hvalue₂ hothers as
  rw [hsums, sub_self] at hdifference
  have hcount : ((Dict.group Measured.label as b.label).length : ℚ) ≠ 0 := by
    obtain ⟨a, ha, hsame⟩ := List.mem_map.mp hcommon
    exact Nat.cast_ne_zero.mpr (length_pos_of_mem (mem_group.mpr ⟨ha, hsame⟩)).ne'
  have hzero := (mul_eq_zero.mp hdifference.symm).resolve_left hcount
  linarith

/-! The segments listed, in any order of the segments. -/

/-- No segment behind the listed ones has the opposite value of one of them. -/
def Unopposed (total : ℚ) (ms : List Measured) : Prop :=
  ∀ k ∈ listed total ms, ∀ s ∈ folded total ms, |s.value| = |k.value| → s.value = k.value

theorem listed_magnitudes (total : ℚ) (h : ms'.Perm ms) :
    (listed total ms').map (fun s => |s.value|) = (listed total ms).map fun s => |s.value| := by
  rw [listed, listed, keptCount_perm total h.symm, map_take, map_take, ranked_magnitudes h.symm]

theorem listed_values_perm {total : ℚ} (h : ms'.Perm ms) (hunopposed : Unopposed total ms) :
    ((listed total ms').map Measured.value).Perm ((listed total ms).map Measured.value) := by
  have hmagnitudes := listed_magnitudes total h
  have hlength : ((listed total ms).map Measured.value).length ≤ ((listed total ms').map Measured.value).length := by
    have hsame := congrArg List.length hmagnitudes
    rw [length_map, length_map] at hsame
    rw [length_map, length_map, hsame]
  refine (subperm_ext_iff.mpr fun v hv => ?_).perm_of_length_le hlength
  obtain ⟨s', hs', hvalue⟩ := List.mem_map.mp hv
  have hranked : ((ranked ms').map Measured.value).Perm ((listed total ms ++ folded total ms).map Measured.value) := by
    rw [listed_append_folded]
    exact (((ranked_perm ms').trans h).trans (ranked_perm ms).symm).map _
  have hsub : List.count v ((listed total ms').map Measured.value) ≤ List.count v ((ranked ms').map Measured.value) :=
    ((take_sublist _ _).map _).count_le v
  by_cases hfolded : ∃ s ∈ folded total ms, |s.value| = |v|
  · -- then all of this magnitude have one value, and the listed ones are counted by their magnitudes
    obtain ⟨s, hs, hmagnitude⟩ := hfolded
    have hlisted : |v| ∈ (listed total ms).map fun s => |s.value| := by
      rw [← hmagnitudes, ← hvalue]
      exact List.mem_map_of_mem (f := fun s : Measured => |s.value|) hs'
    obtain ⟨k, hk, hkey⟩ := List.mem_map.mp hlisted
    have hone : ∀ x ∈ listed total ms, |x.value| = |v| → x.value = s.value :=
      fun x hx hxv => (hunopposed x hx s hs (hmagnitude.trans hxv.symm)).symm
    have hsv : s.value = v := by
      have hmem := hranked.mem_iff.mp (((take_sublist _ _).map _).subset hv)
      obtain ⟨x, hx, hxv⟩ := List.mem_map.mp hmem
      obtain hx | hx := mem_append.mp hx
      · rw [← hxv, ← hone x hx (by rw [hxv])]
      · rw [← hxv, hunopposed k hk x hx (by rw [hxv]; exact hkey.symm), hone k hk hkey]
    have hcounts : ∀ xs : List Measured, List.count v (xs.map Measured.value) ≤
        List.count |v| (xs.map fun s => |s.value|) := by
      intro xs
      rw [count_eq_countP, count_eq_countP, countP_map, countP_map]
      refine countP_mono_left fun x _ hx => ?_
      simp only [Function.comp_apply, beq_iff_eq] at hx ⊢
      rw [hx]
    have hcounted : List.count |v| ((listed total ms).map fun s => |s.value|) =
        List.count v ((listed total ms).map Measured.value) := by
      rw [count_eq_countP, count_eq_countP, countP_map, countP_map]
      refine countP_congr fun x hx => ?_
      simp only [Function.comp_apply, beq_iff_eq]
      exact ⟨fun hxv => (hone x hx hxv).trans hsv, fun hxv => by rw [hxv]⟩
    rw [← hcounted, ← hmagnitudes]
    exact hcounts _
  · -- otherwise all of this value are listed
    have hnone : List.count v ((folded total ms).map Measured.value) = 0 := by
      refine count_eq_zero.mpr fun hmem => ?_
      obtain ⟨s, hs, hsv⟩ := List.mem_map.mp hmem
      exact hfolded ⟨s, hs, by rw [hsv]⟩
    rw [Perm.count_eq hranked, map_append, count_append, hnone, Nat.add_zero] at hsub
    exact hsub

theorem ranked_of_magnitudes {zs : List Measured}
    (h : zs.map (fun s => |s.value|) = (ranked ms).map fun s => |s.value|) : ranked zs = zs := by
  have hsorted : ((ranked ms).map fun s => |s.value|).Pairwise fun a b => b ≤ a :=
    pairwise_map.mpr (ranked_pairwise ms)
  rw [← h, pairwise_map] at hsorted
  exact sortBy_of_pairwise _ (hsorted.imp neg_le_neg)

theorem unopposed_of_listed {total : ℚ}
    (h : ∀ ms', ms'.Perm ms → ((listed total ms').map Measured.value).Perm ((listed total ms).map Measured.value)) :
    Unopposed total ms := by
  intro k hk s hs hmagnitude
  -- the two change places, which no ranking notices
  obtain ⟨before, behind, hlisted⟩ := append_of_mem hk
  obtain ⟨before', behind', hfolded⟩ := append_of_mem hs
  have hranked := listed_append_folded total ms
  rw [hlisted, hfolded] at hranked
  set zs := (before ++ s :: behind) ++ (before' ++ k :: behind') with hzs
  have hperm : zs.Perm ms := by
    refine List.Perm.trans ?_ (ranked_perm ms)
    rw [← hranked, hzs, perm_iff_count]
    intro x
    simp only [count_append, count_cons]
    omega
  have hsame : ranked zs = zs := by
    refine @ranked_of_magnitudes ms _ ?_
    rw [← hranked, hzs]
    simp [hmagnitude]
  have hcount : keptCount total ms = (before ++ s :: behind).length := by
    have hlength : (listed total ms).length = keptCount total ms := by
      rw [listed, length_take, (ranked_perm ms).length_eq]
      exact Nat.min_eq_left ((Nat.min_le_left _ _).trans countP_le_length)
    rw [← hlength, hlisted, length_append, length_append, length_cons, length_cons]
  have hexchanged : listed total zs = before ++ s :: behind := by
    rw [listed, hsame, keptCount_perm total hperm.symm, hcount, hzs, take_left']
    rfl
  have hsums := (h zs hperm).sum_eq
  rw [hexchanged, hlisted] at hsums
  simp only [map_append, map_cons, sum_append, sum_cons] at hsums
  linarith

/-- Segments as large as any have one value. -/
def LargestAgree (ms : List Measured) : Prop :=
  ∀ s ∈ ms, ∀ s' ∈ ms, |s'.value| = |s.value| → (∀ x ∈ ms, |x.value| ≤ |s.value|) → s'.value = s.value

theorem head?_ranked {top : Measured} (h : (ranked ms).head? = some top) :
    top ∈ ms ∧ ∀ x ∈ ms, |x.value| ≤ |top.value| := by
  obtain ⟨rest, hrest⟩ := List.head?_eq_some_iff.mp h
  have hsorted := ranked_pairwise ms
  have hmem : ∀ x, x ∈ ms ↔ x ∈ top :: rest := by
    intro x
    rw [← hrest]
    exact (ranked_perm ms).mem_iff.symm
  refine ⟨(hmem top).mpr mem_cons_self, fun x hx => ?_⟩
  rw [hrest] at hsorted
  obtain rfl | hx := mem_cons.mp ((hmem x).mp hx)
  · exact le_refl _
  · exact rel_of_pairwise_cons hsorted hx

theorem top_value_perm (h : ms'.Perm ms) (hagree : LargestAgree ms) :
    (ranked ms').head?.map Measured.value = (ranked ms).head?.map Measured.value := by
  have hperm : (ranked ms').Perm (ranked ms) := ((ranked_perm ms').trans h).trans (ranked_perm ms).symm
  cases htop : (ranked ms).head? with
  | none =>
    rw [List.head?_eq_none_iff] at htop
    rw [htop] at hperm
    rw [hperm.eq_nil]
    rfl
  | some top =>
    cases htop' : (ranked ms').head? with
    | none =>
      rw [List.head?_eq_none_iff] at htop'
      rw [htop'] at hperm
      rw [hperm.symm.eq_nil] at htop
      cases htop
    | some top' =>
      obtain ⟨hmem, hlargest⟩ := head?_ranked htop
      obtain ⟨hmem', hlargest'⟩ := head?_ranked htop'
      have hmagnitude := le_antisymm (hlargest top' (h.mem_iff.mp hmem')) (hlargest' top (h.mem_iff.mpr hmem))
      rw [map_some, map_some, hagree top hmem top' (h.mem_iff.mp hmem') hmagnitude hlargest]

theorem largestAgree_of_top
    (h : ∀ ms', ms'.Perm ms → (ranked ms').head?.map Measured.value = (ranked ms).head?.map Measured.value) :
    LargestAgree ms := by
  have hfirst : ∀ s ∈ ms, (∀ x ∈ ms, |x.value| ≤ |s.value|) → (ranked ms).head?.map Measured.value = some s.value := by
    intro s hs hlargest
    obtain ⟨before, behind, hms⟩ := append_of_mem hs
    have hperm : (s :: ranked (before ++ behind)).Perm ms := by
      rw [hms]
      exact ((ranked_perm _).cons s).trans perm_middle.symm
    have hranked : ranked (s :: ranked (before ++ behind)) = s :: ranked (before ++ behind) := by
      refine sortBy_of_pairwise _ (pairwise_cons.mpr ⟨fun x hx => neg_le_neg (hlargest x ?_), sortBy_pairwise _ _⟩)
      exact hperm.mem_iff.mp (mem_cons_of_mem _ hx)
    rw [← h _ hperm, hranked]
    rfl
  intro s hs s' hs' hmagnitude hlargest
  have hsame := (hfirst s' hs' (by rwa [hmagnitude])).symm.trans (hfirst s hs hlargest)
  exact Option.some.inj hsame

/-! The account of one period. -/

/-- Some part of a total can be listed. -/
def Listable (ms : List Measured) : Prop := (ms.map Measured.value).sum ≠ 0 ∧ ∃ s ∈ ms, ¬Small (ms.map Measured.value).sum s

theorem listed_ne_nil {total : ℚ} : listed total ms ≠ [] ↔ ∃ s ∈ ms, ¬Small total s := by
  have hlength : (listed total ms).length = keptCount total ms := by
    rw [listed, length_take, (ranked_perm ms).length_eq]
    exact Nat.min_eq_left ((Nat.min_le_left _ _).trans countP_le_length)
  have hpositive : 0 < keptCount total ms ↔ ∃ s ∈ ms, ¬Small total s := by
    rw [keptCount, Nat.lt_min, countP_pos_iff]
    constructor
    · rintro ⟨⟨s, hs, hlarge⟩, _⟩
      exact ⟨s, hs, of_decide_eq_true hlarge⟩
    · rintro ⟨s, hs, hlarge⟩
      exact ⟨⟨s, hs, decide_eq_true hlarge⟩, by decide⟩
  rw [← hpositive, ← hlength, length_pos_iff]

theorem reported_of_listable {segments : List Segment} (h : Listable (measured segments)) :
    reported segments = some {
      shares := (listed ((measured segments).map Measured.value).sum (measured segments)).map
        (Measured.toShare ((measured segments).map Measured.value).sum)
      total := ((measured segments).map Measured.value).sum
      reconciled := none
      otherCount := (folded ((measured segments).map Measured.value).sum (measured segments)).length
      otherValue := ((folded ((measured segments).map Measured.value).sum (measured segments)).map Measured.value).sum } := by
  obtain ⟨s, hs, -⟩ := h.2
  have hshares := @shares_eq segments none (ne_nil_of_mem hs) h.1
  have hlisted := listed_ne_nil.mpr h.2
  rw [reported, hshares, filter_some, if_pos]
  · rfl
  · refine decide_eq_true fun hnone => hlisted ?_
    exact map_eq_nil_iff.mp hnone

theorem reported_of_not_listable {segments : List Segment} (h : ¬Listable (measured segments)) : reported segments = none := by
  by_cases hne : measured segments = []
  · rw [reported, shares, if_pos hne]
    rfl
  · by_cases ht : total segments none = 0
    · rw [reported, shares_of_total hne ht]
      rfl
    · have hlisted : listed (total segments none) (measured segments) = [] := by
        by_contra hlisted
        exact h ⟨ht, listed_ne_nil.mp hlisted⟩
      rw [reported, shares_eq hne ht, filter_some, if_neg]
      rw [hlisted]
      simp

theorem Listable.perm (h : ms'.Perm ms) : Listable ms' ↔ Listable ms := by
  rw [Listable, Listable, (h.map Measured.value).sum_eq]
  exact and_congr_right fun _ => ⟨fun ⟨s, hs, hlarge⟩ => ⟨s, h.mem_iff.mp hs, hlarge⟩,
    fun ⟨s, hs, hlarge⟩ => ⟨s, h.mem_iff.mpr hs, hlarge⟩⟩

end SelericSwarm.Breakdown
