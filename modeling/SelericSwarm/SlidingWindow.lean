import Mathlib.Algebra.Order.Group.Defs
import Mathlib.Tactic.Abel

/-! A limiter that keeps the moments it has admitted in the last window, over any
ordered group of moments. -/
namespace SlidingWindow
open List
universe u
variable {T : Type u} [AddCommGroup T] [LinearOrder T] [IsOrderedAddMonoid T]

/-- The hits that still count. -/
def live (window now : T) (hits : List T) : List T := hits.dropWhile (· ≤ now - window)

def offer (limit : Nat) (window now : T) (hits : List T) : Bool × List T :=
  if limit ≤ (live window now hits).length then (false, live window now hits)
  else (true, live window now hits ++ [now])

/-- The admitted moments in the half-open window from `start` on. -/
def within (window start : T) (admitted : List T) : Nat :=
  admitted.countP fun t => start ≤ t ∧ t < start + window

omit [AddCommGroup T] [IsOrderedAddMonoid T] in
theorem dropWhile_eq_filter {l : List T} (h : l.Pairwise (· ≤ ·)) (cut : T) :
    l.dropWhile (· ≤ cut) = l.filter (cut < ·) := by
  induction l with
  | nil => rfl
  | cons a l ih =>
    obtain ⟨ha, hl⟩ := pairwise_cons.mp h
    by_cases hcut : a ≤ cut
    · rw [dropWhile_cons_of_pos (by simpa using hcut), filter_cons_of_neg (by simpa using hcut), ih hl]
    · rw [dropWhile_cons_of_neg (by simpa using hcut), filter_eq_self.mpr]
      intro b hb
      obtain rfl | hb := mem_cons.mp hb
      · simpa using hcut
      · simpa using (not_le.mp hcut).trans_le (ha b hb)

/-- The hits are the admitted moments behind some cut that has left the window. -/
structure Tracks (limit : Nat) (window now : T) (admitted hits : List T) : Prop where
  sorted : admitted.Pairwise (· ≤ ·)
  past : ∀ t ∈ admitted, t ≤ now
  hits_eq : ∃ cut ≤ now - window, hits = admitted.filter (cut < ·)
  bounded : ∀ start, within window start admitted ≤ limit

omit [IsOrderedAddMonoid T] in
theorem Tracks.empty (limit : Nat) (window now : T) : Tracks limit window now [] [] where
  sorted := .nil
  past := by simp
  hits_eq := ⟨now - window, le_rfl, rfl⟩
  bounded _ := Nat.zero_le _

variable {admitted hits : List T}

theorem Tracks.later {limit : Nat} {window now now' : T} (h : Tracks limit window now admitted hits)
    (hnow : now ≤ now') : Tracks limit window now' admitted hits where
  sorted := h.sorted
  past t ht := (h.past t ht).trans hnow
  hits_eq := by
    obtain ⟨cut, hcut, heq⟩ := h.hits_eq
    exact ⟨cut, hcut.trans (sub_le_sub_right hnow window), heq⟩
  bounded := h.bounded

theorem Tracks.live_eq {limit : Nat} {window now now' : T} (h : Tracks limit window now admitted hits)
    (hnow : now ≤ now') : live window now' hits = admitted.filter (now' - window < ·) := by
  obtain ⟨cut, hcut, rfl⟩ := h.hits_eq
  have hle : cut ≤ now' - window := hcut.trans (sub_le_sub_right hnow window)
  rw [live, dropWhile_eq_filter (h.sorted.filter _), List.filter_filter]
  refine filter_congr fun t _ => ?_
  simpa using fun ht => hle.trans_lt ht

theorem Tracks.offer {limit : Nat} {window now now' : T} (h : Tracks limit window now admitted hits)
    (hwindow : 0 < window) (hnow : now ≤ now') :
    Tracks limit window now' (if (SlidingWindow.offer limit window now' hits).1 then admitted ++ [now'] else admitted)
      (SlidingWindow.offer limit window now' hits).2 := by
  have hlive := h.live_eq hnow
  unfold SlidingWindow.offer
  by_cases hfull : limit ≤ (live window now' hits).length
  · rw [if_pos hfull]
    exact ⟨h.sorted, fun t ht => (h.past t ht).trans hnow, ⟨_, le_rfl, hlive⟩, h.bounded⟩
  · rw [if_neg hfull]
    simp only [if_true]
    refine ⟨?_, ?_, ?_, ?_⟩
    · refine pairwise_append.mpr ⟨h.sorted, pairwise_singleton _ _, ?_⟩
      intro t ht t' ht'
      rw [mem_singleton.mp ht']
      exact (h.past t ht).trans hnow
    · intro t ht
      obtain ht | ht := mem_append.mp ht
      · exact (h.past t ht).trans hnow
      · exact (mem_singleton.mp ht).le
    · refine ⟨_, le_rfl, ?_⟩
      rw [hlive, filter_append, filter_cons_of_pos (by simpa using hwindow), filter_nil]
    · intro start
      rw [within, countP_append]
      by_cases hin : start ≤ now' ∧ now' < start + window
      · -- what the window holds besides the new moment is live
        have hsub : within window start admitted ≤ (live window now' hits).length := by
          rw [hlive, ← countP_eq_length_filter]
          refine countP_mono_left fun t _ ht => ?_
          have hstart : now' - window < start := sub_lt_iff_lt_add.mpr hin.2
          simpa using hstart.trans_le (of_decide_eq_true ht).1
        have hone : [now'].countP (fun t => decide (start ≤ t ∧ t < start + window)) ≤ 1 := countP_le_length
        rw [within] at hsub
        omega
      · have hnone : [now'].countP (fun t => decide (start ≤ t ∧ t < start + window)) = 0 := by
          simpa using hin
        rw [hnone]
        exact h.bounded start

theorem Tracks.bounded_right {limit : Nat} {window now : T} (h : Tracks limit window now admitted hits) (start : T) :
    (admitted.countP fun t => start < t ∧ t ≤ start + window) ≤ limit := by
  rw [countP_eq_length_filter]
  cases hlate : admitted.filter fun t => start < t ∧ t ≤ start + window with
  | nil => exact Nat.zero_le _
  | cons first rest =>
    have hmem : ∀ t ∈ first :: rest, start < t ∧ t ≤ start + window := by
      intro t ht
      rw [← hlate] at ht
      exact of_decide_eq_true (mem_filter.mp ht).2
    have hsorted := h.sorted.filter fun t => start < t ∧ t ≤ start + window
    rw [hlate] at hsorted
    have hsub : (admitted.filter fun t => start < t ∧ t ≤ start + window).countP
        (fun t => decide (first ≤ t ∧ t < first + window)) ≤ within window first admitted :=
      filter_sublist.countP_le
    rw [hlate, countP_eq_length.mpr] at hsub
    · exact hsub.trans (h.bounded first)
    · intro t ht
      refine decide_eq_true ⟨?_, (hmem t ht).2.trans_lt (add_lt_add_left (hmem first mem_cons_self).1 window)⟩
      obtain rfl | ht := mem_cons.mp ht
      · exact le_refl _
      · exact rel_of_pairwise_cons hsorted ht

end SlidingWindow
