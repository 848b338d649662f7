import Mathlib.Data.List.Sort

/-! Pages of the items with the highest keys, each behind the last key of the page before it. -/
namespace Keyset
open List
universe u v w
variable {α : Type u} {κ : Type v} {γ : Type w}

/-- The pages that a reader gets who follows the cursors; none if the fuel runs out or a page is refused. -/
def walk (next : Option γ → Option (List α × Option γ)) : Nat → Option γ → Option (List (List α))
  | 0, _ => none
  | fuel + 1, cursor => (next cursor).bind fun page => match page.2 with
    | none => some [page.1]
    | some cursor => (walk next fuel (some cursor)).map (page.1 :: ·)

def pieces (limit : Nat) : Nat → List α → List (List α)
  | 0, _ => []
  | fuel + 1, l => if l.length ≤ limit then [l] else l.take limit :: pieces limit fuel (l.drop limit)

section Pieces
variable {limit : Nat}

theorem pieces_flatten (hlimit : 0 < limit) (fuel : Nat) : ∀ l : List α, l.length < fuel →
    (pieces limit fuel l).flatten = l := by
  induction fuel with
  | zero => exact fun _ h => absurd h (Nat.not_lt_zero _)
  | succ fuel ih =>
    intro l h
    rw [pieces]
    split
    · simp
    · have hdrop : (l.drop limit).length < fuel := by
        rw [length_drop]
        omega
      rw [flatten_cons, ih _ hdrop, take_append_drop]

theorem pieces_ne_nil (fuel : Nat) (l : List α) : pieces limit (fuel + 1) l ≠ [] := by
  rw [pieces]
  split <;> exact cons_ne_nil _ _

theorem pieces_full (fuel : Nat) : ∀ l : List α, ∀ page ∈ (pieces limit fuel l).dropLast, page.length = limit := by
  induction fuel with
  | zero => exact fun _ => nofun
  | succ fuel ih =>
    intro l page hpage
    rw [pieces] at hpage
    split at hpage
    · cases hpage
    · rename_i hmore
      have htake : (l.take limit).length = limit := by
        rw [length_take]
        omega
      cases fuel with
      | zero => cases hpage
      | succ fuel =>
        rw [dropLast_cons_of_ne_nil (pieces_ne_nil fuel _)] at hpage
        obtain rfl | hpage := mem_cons.mp hpage
        · exact htake
        · exact ih _ page hpage

end Pieces

variable [LinearOrder κ] (key : α → κ)

def below (items : List α) (boundary : Option κ) : List α :=
  (items.filter fun a => boundary.all (key a < ·)).insertionSort fun a b => key b ≤ key a

/-- The first of them, and the key of the last one if there are more. -/
def page (limit : Nat) (items : List α) (boundary : Option κ) : List α × Option κ :=
  let ordered := below key items boundary
  (ordered.take limit, if limit < ordered.length then (ordered.take limit).getLast?.map key else none)

variable {key} {items : List α} {limit : Nat}

theorem below_perm (boundary : Option κ) :
    (below key items boundary).Perm (items.filter fun a => boundary.all (key a < ·)) :=
  perm_insertionSort _ _

theorem below_sorted (h : (items.map key).Nodup) (boundary : Option κ) :
    (below key items boundary).Pairwise fun a b => key b < key a := by
  have hle : (below key items boundary).Pairwise fun a b => key b ≤ key a := pairwise_insertionSort _ _
  have hne : (below key items boundary).Pairwise fun a b => key a ≠ key b := by
    rw [← pairwise_map]
    exact ((below_perm boundary).map key).nodup_iff.mpr (h.sublist (filter_sublist.map key))
  exact (hle.and hne).imp fun hab => lt_of_le_of_ne hab.1 (Ne.symm hab.2)

theorem below_last (h : (items.map key).Nodup) {boundary : Option κ} {last : α} {page rest : List α}
    (hpage : below key items boundary = page ++ last :: rest) :
    below key items (some (key last)) = rest := by
  have hsorted := below_sorted h boundary
  have hperm : (below key items boundary).Perm _ := below_perm boundary
  rw [hpage] at hsorted hperm
  obtain ⟨-, hlast, hbefore⟩ := pairwise_append.mp hsorted
  obtain ⟨hrest, hrestSorted⟩ := pairwise_cons.mp hlast
  have hall (a : α) (ha : key a < key last) : boundary.all (key a < ·) = true := by
    have hmem : last ∈ items.filter fun a => boundary.all (key a < ·) := hperm.subset (by simp)
    cases boundary with
    | none => rfl
    | some k =>
      have hk : key last < k := by simpa using (mem_filter.mp hmem).2
      simpa using ha.trans hk
  have hfilter : (items.filter fun a => (some (key last)).all (key a < ·)) =
      (items.filter fun a => boundary.all (key a < ·)).filter fun a => key a < key last := by
    rw [List.filter_filter]
    refine filter_congr fun a _ => ?_
    by_cases ha : key a < key last
    · simp [ha, hall a ha]
    · simp [ha]
  have hfront : page.filter (fun a => key a < key last) = [] := by
    rw [filter_eq_nil_iff]
    intro a ha
    have hlow := hbefore a ha last mem_cons_self
    simpa using hlow.le
  have hkept : (page ++ last :: rest).filter (fun a => key a < key last) = rest := by
    rw [filter_append, hfront, nil_append, filter_cons_of_neg (by simp),
      filter_eq_self.mpr (by simpa using hrest)]
  have hsame : (below key items (some (key last))).Perm rest := by
    refine (below_perm _).trans ?_
    rw [hfilter, ← hkept]
    exact hperm.symm.filter _
  exact hsame.eq_of_pairwise (fun a b _ _ hab hba => absurd hab (lt_asymm hba)) (below_sorted h _) hrestSorted

theorem walk_page (h : (items.map key).Nodup) (hlimit : 0 < limit) (fuel : Nat) : ∀ boundary : Option κ,
    (below key items boundary).length < fuel →
      walk (fun boundary => some (page key limit items boundary)) fuel boundary =
        some (pieces limit fuel (below key items boundary)) := by
  induction fuel with
  | zero => exact fun _ h => absurd h (Nat.not_lt_zero _)
  | succ fuel ih =>
    intro boundary hfuel
    rw [walk, pieces, Option.bind_some]
    by_cases hmore : limit < (below key items boundary).length
    · have hlast : ∃ last, ((below key items boundary).take limit).getLast? = some last := by
        rw [← Option.isSome_iff_exists, List.getLast?_isSome, ← length_pos_iff, length_take]
        omega
      obtain ⟨last, hlast⟩ := hlast
      obtain ⟨front, hfront⟩ := List.getLast?_eq_some_iff.mp hlast
      have hsplit : below key items boundary = front ++ last :: (below key items boundary).drop limit := by
        conv_lhs => rw [← take_append_drop limit (below key items boundary), hfront]
        rw [append_assoc, singleton_append]
      have hrest := below_last h hsplit
      have hpage : page key limit items boundary =
          ((below key items boundary).take limit, some (key last)) := by
        rw [page, if_pos hmore, hlast]
        rfl
      have hlength : (below key items (some (key last))).length < fuel := by
        rw [hrest, length_drop]
        omega
      rw [hpage, if_neg (Nat.not_le.mpr hmore)]
      dsimp only
      rw [ih _ hlength, hrest]
      rfl
    · have hpage : page key limit items boundary = (below key items boundary, none) := by
        rw [page, if_neg hmore, take_of_length_le (Nat.not_lt.mp hmore)]
      rw [hpage, if_pos (Nat.not_lt.mp hmore)]

omit [LinearOrder κ] in
theorem walk_encoded {next : Option κ → Option (List α × Option κ)} {served : Option γ → Option (List α × Option γ)}
    (encode : κ → γ)
    (h : ∀ cursor, served (cursor.map encode) = (next cursor).map fun page => (page.1, page.2.map encode))
    (fuel : Nat) : ∀ cursor, walk served fuel (cursor.map encode) = walk next fuel cursor := by
  induction fuel with
  | zero => exact fun _ => rfl
  | succ fuel ih =>
    intro cursor
    rw [walk, walk, h, Option.bind_map]
    congr 1
    funext page
    obtain ⟨items, following⟩ := page
    cases following with
    | none => rfl
    | some k => exact congrArg (Option.map (items :: ·)) (ih (some k))

end Keyset
