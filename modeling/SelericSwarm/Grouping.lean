import SelericSwarm.Table

/-! Items collected under their keys, each group in the order of the items. -/
namespace Keyed.Dict
open List Option
universe u v
variable {κ : Type u} {α : Type v} [DecidableEq κ]

/-- `d.setdefault(k, []).append(a)` -/
def append (d : Dict κ (List α)) (k : κ) (a : α) : Dict κ (List α) := d.set k (d.getD k [] ++ [a])

section Grouped
variable (key : α → κ)

def grouped (items : List α) : Dict κ (List α) := items.foldl (fun d a => d.append (key a) a) empty

def group (items : List α) (k : κ) : List α := items.filter fun a => key a = k

theorem group_cons_of_eq {a : α} {k : κ} (items : List α) (h : key a = k) :
    group key (a :: items) k = a :: group key items k := filter_cons_of_pos (by simpa using h)

theorem group_cons_of_ne {a : α} {k : κ} (items : List α) (h : key a ≠ k) :
    group key (a :: items) k = group key items k := filter_cons_of_neg (by simpa using h)

theorem get?_foldl_append (items : List α) (k : κ) : ∀ d : Dict κ (List α),
    (items.foldl (fun d a => d.append (key a) a) d).get? k =
      if group key items k = [] then d.get? k else some (d.getD k [] ++ group key items k) := by
  induction items with
  | nil => exact fun d => rfl
  | cons a items ih =>
    intro d
    rw [foldl_cons, ih]
    by_cases hk : key a = k
    · have hset : (d.append (key a) a).get? k = some (d.getD k [] ++ [a]) := by
        rw [append, hk]
        exact get?_set_self _ _ _
      rw [group_cons_of_eq key items hk, if_neg (cons_ne_nil _ _), getD, hset, getD_some,
        append_assoc, singleton_append]
      split
      · next hnil => rw [hnil]
      · rfl
    · have hset : (d.append (key a) a).get? k = d.get? k := get?_set_of_ne d _ hk
      rw [group_cons_of_ne key items hk, getD, hset]
      rfl

theorem get?_grouped (items : List α) (k : κ) : (grouped key items).get? k =
    if group key items k = [] then none else some (group key items k) :=
  get?_foldl_append key items k empty

theorem mem_grouped {items : List α} {k : κ} {g : List α} :
    (k, g) ∈ (grouped key items).rows ↔ g = group key items k ∧ g ≠ [] := by
  have hget := get?_grouped key items k
  constructor
  · intro h
    have hrow : Table.get? (grouped key items) k = some (k, g) := Table.get?_of_mem h
    rw [get?, hrow, map_some] at hget
    by_cases hnil : group key items k = []
    · rw [if_pos hnil] at hget
      cases hget
    · rw [if_neg hnil] at hget
      have hsame : g = group key items k := Option.some.inj hget
      rw [hsame]
      exact ⟨rfl, hnil⟩
  · rintro ⟨hsame, hne⟩
    rw [hsame] at hne ⊢
    rw [if_neg hne] at hget
    obtain ⟨row, hrow, hg⟩ := map_eq_some_iff.mp hget
    have hk : row.1 = k := Table.key_of_get? hrow
    have hpair : row = (k, group key items k) := Prod.ext hk hg
    rw [← hpair]
    exact Table.mem_of_get? hrow

theorem mem_grouped_of_perm {items items' : List α} (h : items.Perm items') {k : κ} {g : List α}
    (hg : (k, g) ∈ (grouped key items).rows) : ∃ g', (k, g') ∈ (grouped key items').rows ∧ g.Perm g' := by
  obtain ⟨hsame, hne⟩ := (mem_grouped key).mp hg
  have hperm : (group key items k).Perm (group key items' k) := h.filter _
  refine ⟨group key items' k, (mem_grouped key).mpr ⟨rfl, fun hnil => hne ?_⟩, hsame ▸ hperm⟩
  rw [hnil] at hperm
  rw [hsame, hperm.eq_nil]

theorem getD_foldl_append {β : Type v} (f : α → β) (items : List α) (k : κ) : ∀ d : Dict κ (List β),
    (items.foldl (fun d a => d.append (key a) (f a)) d).getD k [] = d.getD k [] ++ (group key items k).map f := by
  induction items with
  | nil => exact fun d => (append_nil _).symm
  | cons a items ih =>
    intro d
    rw [foldl_cons, ih]
    by_cases hk : key a = k
    · rw [group_cons_of_eq key items hk, append, hk, getD, get?_set_self, getD_some, map_cons,
        append_assoc, singleton_append]
    · rw [group_cons_of_ne key items hk, append, getD, get?_set_of_ne d _ hk, getD]

/-- `{key(a): a for a in items}`: of items with one key the last stays, in the place of the first. -/
def indexed (items : List α) : Dict κ α := items.foldl (fun d a => d.set (key a) a) empty

theorem get?_foldl_set (items : List α) (k : κ) : ∀ d : Dict κ α,
    (items.foldl (fun d a => d.set (key a) a) d).get? k = (group key items k).getLast?.or (d.get? k) := by
  induction items with
  | nil => exact fun d => rfl
  | cons a items ih =>
    intro d
    rw [foldl_cons, ih]
    by_cases hk : key a = k
    · rw [group_cons_of_eq key items hk, hk, get?_set_self]
      cases group key items k with
      | nil => rfl
      | cons b bs => rw [List.getLast?_cons_cons, List.getLast?_eq_some_getLast (cons_ne_nil b bs)]; rfl
    · rw [group_cons_of_ne key items hk, get?_set_of_ne d _ hk]

theorem get?_indexed (items : List α) (k : κ) : (indexed key items).get? k = (group key items k).getLast? := by
  have hget := get?_foldl_set key items k empty
  rwa [get?_empty, or_none] at hget

end Grouped

theorem get?_foldl_pairs {ν : Type v} (pairs : List (κ × ν)) (k : κ) : ∀ d : Dict κ ν,
    (pairs.foldl (fun d p => d.set p.1 p.2) d).get? k =
      ((group Prod.fst pairs k).getLast?.map Prod.snd).or (d.get? k) := by
  induction pairs with
  | nil => exact fun d => rfl
  | cons p pairs ih =>
    intro d
    rw [foldl_cons, ih]
    by_cases hk : p.1 = k
    · rw [group_cons_of_eq Prod.fst pairs hk, hk, get?_set_self]
      cases group Prod.fst pairs k with
      | nil => rfl
      | cons q qs => rw [List.getLast?_cons_cons, List.getLast?_eq_some_getLast (cons_ne_nil q qs)]; rfl
    · rw [group_cons_of_ne Prod.fst pairs hk, get?_set_of_ne d _ hk]

/-- Any item can be the last one, the order of the others kept. -/
theorem exists_last {xs : List α} {a : α} (h : a ∈ xs) : ∃ ys : List α, ys.Perm xs ∧
    (∀ p : α → Bool, p a = true → (ys.filter p).getLast? = some a) ∧ ∀ p : α → Bool, p a = false → ys.filter p = xs.filter p := by
  obtain ⟨before, behind, rfl⟩ := append_of_mem h
  refine ⟨before ++ behind ++ [a], ?_, fun p hp => ?_, fun p hp => ?_⟩
  · rw [append_assoc]
    exact (perm_append_singleton a behind).append_left before
  · rw [filter_append, filter_cons_of_pos hp]
    exact List.getLast?_concat
  · rw [filter_append, filter_append, filter_append, filter_cons_of_neg (by simp [hp]),
      filter_cons_of_neg (by simp [hp]), filter_nil, append_nil]

end Keyed.Dict
