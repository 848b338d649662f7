import Mathlib.Data.List.Induction
import Mathlib.Data.List.Perm.Basic
import SelericSwarm.Grouping

/-! Groups in the order in which their keys come up, and the items of one key put in another order. -/
open List

namespace Keyed
universe u v w
variable {κ : Type u} {α : Type v} {β : Type w} [DecidableEq κ]

namespace Dict

theorem keys_set (d : Dict κ α) (k : κ) (a : α) : (d.set k a).rows.map Prod.fst =
    if k ∈ d.rows.map Prod.fst then d.rows.map Prod.fst else d.rows.map Prod.fst ++ [k] := by
  by_cases hk : k ∈ d.rows.map Prod.fst
  · rw [if_pos hk, set, Table.put, dif_pos hk]
    exact Table.map_key_replace _ _
  · rw [if_neg hk, set, Table.put, dif_neg hk]
    exact map_append

theorem keys_foldl_append [BEq κ] [LawfulBEq κ] {γ : Type v} (key : α → κ) (f : α → γ) (items : List α) :
    (items.foldl (fun d a => d.append (key a) (f a)) empty).rows.map Prod.fst = (items.map key).eraseDups := by
  induction items using List.reverseRecOn with
  | nil => rfl
  | append_singleton items a ih =>
    rw [foldl_concat, append, keys_set, ih, map_append, map_singleton, eraseDups_append]
    by_cases hseen : key a ∈ items.map key
    · rw [if_pos (mem_eraseDups.mpr hseen), List.removeAll, filter_cons_of_neg (by simpa using hseen)]
      exact (append_nil _).symm
    · rw [if_neg (fun hk => hseen (mem_eraseDups.mp hk)), List.removeAll,
        filter_cons_of_pos (by simpa using hseen)]
      rfl

/-- The groups stand in the order in which their keys come up. -/
theorem rows_foldl_append [BEq κ] [LawfulBEq κ] {γ : Type v} (key : α → κ) (f : α → γ) (items : List α) :
    (items.foldl (fun d a => d.append (key a) (f a)) empty).rows =
      (items.map key).eraseDups.map fun k => (k, (group key items k).map f) := by
  rw [← keys_foldl_append key f, List.map_map]
  refine (List.map_id _).symm.trans (map_congr_left fun row hrow => ?_)
  have hgroup := getD_foldl_append key f items row.1 empty
  have hrow' := Table.get?_of_mem hrow
  rw [getD, get?, hrow'] at hgroup
  exact Prod.ext rfl hgroup

end Dict

section Refill
variable (key : α → κ) (k : κ)

def refill : List α → List α → List α
  | a :: items, b :: bs => if key a = k then b :: refill items bs else a :: refill items (b :: bs)
  | items, _ => items

variable {key k}

theorem filterMap_refill {g : α → Option β} {c : Option β} (hg : ∀ a, key a = k → g a = c) (items : List α) :
    ∀ bs : List α, (∀ b ∈ bs, key b = k) → (refill key k items bs).filterMap g = items.filterMap g := by
  induction items with
  | nil =>
    intro bs _
    rw [refill]
    intro a items b bs h
    cases h
  | cons a items ih =>
    intro bs hbs
    cases bs with
    | nil => rfl
    | cons b bs =>
      rw [refill]
      split
      · next ha =>
        have hrest := ih bs fun b hb => hbs b (mem_cons_of_mem _ hb)
        rw [filterMap_cons, filterMap_cons, hrest, hg a ha, hg b (hbs b mem_cons_self)]
      · rw [filterMap_cons, filterMap_cons, ih (b :: bs) hbs]

theorem map_refill {g : α → β} {c : β} (hg : ∀ a, key a = k → g a = c) (items : List α) {bs : List α}
    (hbs : ∀ b ∈ bs, key b = k) : (refill key k items bs).map g = items.map g := by
  have hsame := filterMap_refill (g := fun a => some (g a)) (fun a ha => congrArg some (hg a ha)) items bs hbs
  rw [← filterMap_eq_map]
  exact hsame

theorem filter_refill {p : α → Bool} (hp : ∀ a, key a = k → p a = false) (items : List α) {bs : List α}
    (hbs : ∀ b ∈ bs, key b = k) : (refill key k items bs).filter p = items.filter p := by
  have hsame := filterMap_refill (g := Option.guard p) (c := none) (fun a ha => by simp [Option.guard, hp a ha]) items bs hbs
  rwa [filterMap_eq_filter] at hsame

theorem group_refill (items : List α) : ∀ bs : List α, (∀ b ∈ bs, key b = k) →
    bs.length = (Dict.group key items k).length → Dict.group key (refill key k items bs) k = bs := by
  induction items with
  | nil =>
    intro bs _ hlength
    rw [eq_nil_of_length_eq_zero hlength]
    rfl
  | cons a items ih =>
    intro bs hbs hlength
    by_cases ha : key a = k
    · rw [Dict.group_cons_of_eq key items ha] at hlength
      cases bs with
      | nil => cases hlength
      | cons b bs =>
        rw [refill, if_pos ha, Dict.group_cons_of_eq key _ (hbs b mem_cons_self),
          ih bs (fun b hb => hbs b (mem_cons_of_mem _ hb)) (Nat.succ.inj hlength)]
    · rw [Dict.group_cons_of_ne key items ha] at hlength
      cases bs with
      | nil => rw [refill, Dict.group_cons_of_ne key items ha, eq_nil_of_length_eq_zero hlength.symm]
               intro a items b bs _ h
               cases h
      | cons b bs => rw [refill, if_neg ha, Dict.group_cons_of_ne key _ ha, ih (b :: bs) hbs hlength]

theorem refill_perm {items bs : List α} (h : bs.Perm (Dict.group key items k)) : (refill key k items bs).Perm items := by
  have hbs : ∀ b ∈ bs, key b = k := fun b hb => of_decide_eq_true (mem_filter.mp (h.mem_iff.mp hb)).2
  have hgroup := group_refill items bs hbs h.length_eq
  have hothers := filter_refill (p := fun a => !decide (key a = k)) (fun a ha => by simp [ha]) items hbs
  have hparts := filter_append_perm (fun a => decide (key a = k)) (refill key k items bs)
  have hparts' := filter_append_perm (fun a => decide (key a = k)) items
  rw [hothers] at hparts
  exact hparts.symm.trans (((Perm.of_eq hgroup).trans h).append_right _ |>.trans hparts')

end Refill
end Keyed
