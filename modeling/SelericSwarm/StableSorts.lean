import Mathlib.Data.List.Sort
import Mathlib.Order.Basic

/-! Sorting by a key, items of one key in the order in which they stood. -/
namespace StableSorts
open List
universe u v
variable {α : Type u} {β : Type v} [LinearOrder β] (key : α → β)

def sortBy (xs : List α) : List α := xs.mergeSort fun a b => decide (key a ≤ key b)

theorem sortBy_perm (xs : List α) : (sortBy key xs).Perm xs := mergeSort_perm xs _

theorem mem_sortBy {xs : List α} {a : α} : a ∈ sortBy key xs ↔ a ∈ xs := (sortBy_perm key xs).mem_iff

theorem length_sortBy (xs : List α) : (sortBy key xs).length = xs.length := (sortBy_perm key xs).length_eq

theorem sortBy_pairwise (xs : List α) : (sortBy key xs).Pairwise fun a b => key a ≤ key b := by
  have hsorted := @pairwise_mergeSort α (fun a b => decide (key a ≤ key b))
    (fun a b c hab hbc => by
      simp only [decide_eq_true_eq] at *
      exact hab.trans hbc)
    (fun a b => by
      simp only [Bool.or_eq_true, decide_eq_true_eq]
      exact le_total (key a) (key b)) xs
  exact hsorted.imp fun h => of_decide_eq_true h

theorem filter_sortBy (xs : List α) (k : β) : (sortBy key xs).filter (fun a => key a = k) = xs.filter fun a => key a = k := by
  have hsame : ((xs.filter fun a => key a = k)).Pairwise fun a b => decide (key a ≤ key b) = true := by
    refine pairwise_of_forall_mem_list fun a ha b hb => ?_
    have hka := of_decide_eq_true (mem_filter.mp ha).2
    have hkb := of_decide_eq_true (mem_filter.mp hb).2
    rw [hka, hkb]
    exact decide_eq_true (le_refl k)
  have hsub : (xs.filter fun a => key a = k).Sublist (sortBy key xs) := sublist_mergeSort
    (fun a b c hab hbc => by
      simp only [decide_eq_true_eq] at *
      exact hab.trans hbc)
    (fun a b => by
      simp only [Bool.or_eq_true, decide_eq_true_eq]
      exact le_total (key a) (key b)) hsame filter_sublist
  have hfiltered := hsub.filter fun a => key a = k
  rw [List.filter_filter] at hfiltered
  simp only [Bool.and_self] at hfiltered
  exact (hfiltered.eq_of_length (((sortBy_perm key xs).symm.filter _).length_eq)).symm

theorem eq_of_filter_eq (s : List α) : ∀ s' : List α, s.Pairwise (fun a b => key a ≤ key b) →
    s'.Pairwise (fun a b => key a ≤ key b) →
    (∀ k, (s.filter fun a => key a = k) = s'.filter fun a => key a = k) → s = s' := by
  have hmem : ∀ {xs ys : List α}, (∀ k, (xs.filter fun a => key a = k) = ys.filter fun a => key a = k) →
      ∀ a ∈ xs, a ∈ ys := by
    intro xs ys h a ha
    have hfiltered : a ∈ xs.filter fun b => key b = key a := mem_filter.mpr ⟨ha, decide_eq_true rfl⟩
    rw [h] at hfiltered
    exact (mem_filter.mp hfiltered).1
  induction s with
  | nil =>
    intro s' _ _ h
    exact (eq_nil_iff_forall_not_mem.mpr fun a ha => not_mem_nil (hmem (fun k => (h k).symm) a ha)).symm
  | cons a s ih =>
    intro s' hs hs' h
    cases s' with
    | nil => exact absurd (hmem h a mem_cons_self) not_mem_nil
    | cons b s' =>
      have hab : key a ≤ key b := by
        obtain rfl | hb := mem_cons.mp (hmem (fun k => (h k).symm) b mem_cons_self)
        · exact le_refl _
        · exact rel_of_pairwise_cons hs hb
      have hba : key b ≤ key a := by
        obtain rfl | ha := mem_cons.mp (hmem h a mem_cons_self)
        · exact le_refl _
        · exact rel_of_pairwise_cons hs' ha
      have hkey : key b = key a := le_antisymm hba hab
      have hfirst := h (key a)
      rw [filter_cons_of_pos (by simp), filter_cons_of_pos (by simpa using hkey)] at hfirst
      obtain rfl := (List.cons.inj hfirst).1
      have htail : s = s' := by
        refine ih s' hs.tail hs'.tail fun k => ?_
        have hk := h k
        by_cases ha : key a = k
        · rw [filter_cons_of_pos (by simpa using ha), filter_cons_of_pos (by simpa using ha)] at hk
          exact (List.cons.inj hk).2
        · rwa [filter_cons_of_neg (by simpa using ha), filter_cons_of_neg (by simpa using ha)] at hk
      rw [htail]

theorem sortBy_of_pairwise {xs : List α} (h : xs.Pairwise fun a b => key a ≤ key b) : sortBy key xs = xs :=
  eq_of_filter_eq key _ _ (sortBy_pairwise key xs) h (filter_sortBy key xs)

theorem sortBy_filter (p : α → Bool) (xs : List α) : sortBy key (xs.filter p) = (sortBy key xs).filter p := by
  refine eq_of_filter_eq key _ _ (sortBy_pairwise key _) ((sortBy_pairwise key xs).filter p) fun k => ?_
  have hcomm : ∀ ys : List α, (ys.filter p).filter (fun a => key a = k) = (ys.filter fun a => key a = k).filter p := by
    intro ys
    rw [List.filter_filter, List.filter_filter]
    exact filter_congr fun a _ => Bool.and_comm _ _
  rw [filter_sortBy, hcomm, hcomm, filter_sortBy]

theorem filter_suffix {xs : List α} (h : xs.Pairwise fun a b => key a ≤ key b) (k : β) :
    (xs.filter fun a => decide (k ≤ key a)) <:+ xs := by
  induction xs with
  | nil => exact suffix_refl []
  | cons a xs ih =>
    obtain ⟨ha, hxs⟩ := pairwise_cons.mp h
    by_cases hk : k ≤ key a
    · have hall : ∀ b ∈ a :: xs, decide (k ≤ key b) = true := by
        intro b hb
        obtain rfl | hb := mem_cons.mp hb
        · exact decide_eq_true hk
        · exact decide_eq_true (hk.trans (ha b hb))
      exact (filter_eq_self.mpr hall).symm ▸ suffix_refl _
    · rw [filter_cons_of_neg (by simpa using hk)]
      exact (ih hxs).trans (suffix_cons a xs)

theorem sortBy_append_last {xs : List α} {t : α} (h : ∀ a ∈ xs, key a ≤ key t) :
    sortBy key (xs ++ [t]) = sortBy key xs ++ [t] := by
  refine eq_of_filter_eq key _ _ (sortBy_pairwise key _) ?_ fun k => ?_
  · rw [pairwise_append]
    refine ⟨sortBy_pairwise key xs, pairwise_singleton _ t, fun a ha b hb => ?_⟩
    rw [mem_singleton.mp hb]
    exact h a ((mem_sortBy key).mp ha)
  · rw [filter_sortBy, filter_append, filter_append, filter_sortBy]

/-- Where no two items share a key, the order in which they stood does not matter. -/
theorem sortBy_eq_of_perm {xs ys : List α} (hperm : xs.Perm ys) (h : (xs.map key).Nodup) : sortBy key xs = sortBy key ys := by
  refine eq_of_filter_eq key _ _ (sortBy_pairwise key xs) (sortBy_pairwise key ys) fun k => ?_
  rw [filter_sortBy, filter_sortBy]
  have hfiltered := hperm.filter fun a => key a = k
  have hshort : ∀ a b, a ∈ (xs.filter fun a => key a = k) → b ∈ (xs.filter fun a => key a = k) → a = b := by
    intro a b ha hb
    have hka := of_decide_eq_true (mem_filter.mp ha).2
    have hkb := of_decide_eq_true (mem_filter.mp hb).2
    exact inj_on_of_nodup_map h (mem_filter.mp ha).1 (mem_filter.mp hb).1 (hka.trans hkb.symm)
  have hnodup : (xs.filter fun a => key a = k).Nodup := (Nodup.of_map key h).filter _
  cases hxs : xs.filter fun a => key a = k with
  | nil =>
    rw [hxs] at hfiltered
    rw [hfiltered.symm.eq_nil]
  | cons a rest =>
    rw [hxs] at hfiltered hshort hnodup
    have hrest : rest = [] := by
      refine eq_nil_iff_forall_not_mem.mpr fun b hb => ?_
      have hsame := hshort a b mem_cons_self (mem_cons_of_mem a hb)
      rw [← hsame] at hb
      exact (nodup_cons.mp hnodup).1 hb
    rw [hrest] at hfiltered ⊢
    rw [hfiltered.symm.eq_singleton]

end StableSorts
