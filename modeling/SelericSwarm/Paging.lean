import Mathlib.Data.List.Sort

/-! Pages of sorted lists of which a reader sees some items only, and walks that collect entries
up to a limit. Nothing is said of what the items are. -/
namespace Paging
open List
universe u v w
variable {α : Type u} {β : Type v} {κ : Type w}

section Sorting
variable (r : α → α → Prop) [DecidableRel r] [Std.Total r] [IsTrans α r] (p : α → Bool)

omit [Std.Total r] in
theorem filter_orderedInsert (a : α) (l : List α) (hl : l.Pairwise r) :
    (l.orderedInsert r a).filter p = if p a then (l.filter p).orderedInsert r a else l.filter p := by
  induction l with
  | nil =>
    rw [orderedInsert_nil, filter_cons]
    rfl
  | cons b l ih =>
    obtain ⟨hb, hl⟩ := pairwise_cons.mp hl
    rw [orderedInsert_cons]
    split
    · rename_i hab
      have hafter : ∀ c ∈ (b :: l).filter p, r a c := by
        intro c hc
        obtain rfl | hc := mem_cons.mp (mem_filter.mp hc).1
        · exact hab
        · exact Trans.trans hab (hb c hc)
      have hinsert : ((b :: l).filter p).orderedInsert r a = a :: (b :: l).filter p := by
        cases hfilter : (b :: l).filter p with
        | nil => rfl
        | cons c cs => exact orderedInsert_cons_of_le r cs (hafter c (by rw [hfilter]; exact mem_cons_self))
      rw [hinsert, filter_cons]
    · rename_i hab
      rw [filter_cons, ih hl, filter_cons]
      cases p a <;> cases p b <;> simp [hab]

/-- Sorting is stable, so that the items seen stand in one order whatever is not seen. -/
theorem filter_insertionSort (l : List α) : (l.insertionSort r).filter p = (l.filter p).insertionSort r := by
  induction l with
  | nil => rfl
  | cons a l ih =>
    rw [insertionSort_cons, filter_orderedInsert r p a _ (pairwise_insertionSort r l), ih, filter_cons]
    split
    · rw [insertionSort_cons]
    · rfl

end Sorting

/-! Places in a sorted list. -/

section Places
variable (r : α → α → Prop) [DecidableRel r] (place : α → Nat)

/-- What sorting by `r` puts before an item, equal items in the order of their places. -/
def ahead (l : List α) (a : α) : List α := l.filter fun b => r b a ∧ (r a b → place b < place a)

variable {place} [Std.Total r] [IsTrans α r]

theorem pairwise_orderedInsert_place {a : α} {l : List α} (ha : ∀ b ∈ l, place a < place b)
    (hl : l.Pairwise fun b c => r b c ∧ (r c b → place b < place c)) :
    (l.orderedInsert r a).Pairwise fun b c => r b c ∧ (r c b → place b < place c) := by
  induction l with
  | nil => exact pairwise_singleton _ a
  | cons b l ih =>
    obtain ⟨hb, hl'⟩ := pairwise_cons.mp hl
    rw [orderedInsert_cons]
    split
    · next hab =>
      refine pairwise_cons.mpr ⟨fun c hc => ⟨?_, fun _ => ha c hc⟩, hl⟩
      obtain rfl | hc := mem_cons.mp hc
      · exact hab
      · exact Trans.trans hab (hb c hc).1
    · next hab =>
      have hba : r b a := (total_of r a b).resolve_left hab
      refine pairwise_cons.mpr ⟨fun c hc => ?_, ih (fun c hc => ha c (mem_cons_of_mem b hc)) hl'⟩
      obtain rfl | hc := (mem_orderedInsert r).mp hc
      · exact ⟨hba, fun h => absurd h hab⟩
      · exact hb c hc

/-- Sorting keeps equal items in the order they had. -/
theorem pairwise_insertionSort_place {l : List α} (hl : l.Pairwise (place · < place ·)) :
    (l.insertionSort r).Pairwise fun b c => r b c ∧ (r c b → place b < place c) := by
  induction l with
  | nil => exact List.Pairwise.nil
  | cons a l ih =>
    obtain ⟨ha, hl⟩ := pairwise_cons.mp hl
    rw [insertionSort_cons]
    exact pairwise_orderedInsert_place r (fun b hb => ha b ((mem_insertionSort r).mp hb)) (ih hl)

/-- An item is on the first page exactly when less than a page is ahead of it. -/
theorem mem_take_insertionSort {l : List α} (hl : l.Pairwise (place · < place ·)) {a : α} (ha : a ∈ l) (n : Nat) :
    a ∈ (l.insertionSort r).take n ↔ (ahead r place l a).length < n := by
  have hsorted := pairwise_insertionSort_place r hl
  have hperm := perm_insertionSort r l
  obtain ⟨front, back, heq⟩ := append_of_mem ((mem_insertionSort r).mpr ha)
  rw [heq] at hsorted hperm ⊢
  obtain ⟨-, hback, hfront⟩ := pairwise_append.mp hsorted
  have hbefore : front.filter (fun b => r b a ∧ (r a b → place b < place a)) = front :=
    filter_eq_self.mpr fun b hb => decide_eq_true (hfront b hb a mem_cons_self)
  have hafter : (a :: back).filter (fun b => r b a ∧ (r a b → place b < place a)) = [] := by
    refine filter_eq_nil_iff.mpr fun b hb => ?_
    rw [decide_eq_true_eq]
    rintro ⟨hba, hplace⟩
    obtain rfl | hb := mem_cons.mp hb
    · exact Nat.lt_irrefl _ (hplace hba)
    · obtain ⟨hab, hplace'⟩ := (pairwise_cons.mp hback).1 b hb
      exact Nat.lt_asymm (hplace hab) (hplace' hba)
  have hlength : (ahead r place l a).length = front.length := by
    have h := (hperm.filter fun b => r b a ∧ (r a b → place b < place a)).length_eq
    rw [filter_append, hbefore, hafter, append_nil] at h
    exact h.symm
  have hnot : a ∉ front := by
    intro hmem
    obtain ⟨hself, hplace⟩ := hfront a hmem a mem_cons_self
    exact Nat.lt_irrefl _ (hplace hself)
  rw [hlength, take_append, mem_append]
  constructor
  · rintro (hmem | hmem)
    · exact absurd (mem_of_mem_take hmem) hnot
    · by_contra hle
      rw [Nat.sub_eq_zero_of_le (not_lt.mp hle)] at hmem
      cases hmem
  · intro hlt
    refine Or.inr ?_
    obtain ⟨k, hk⟩ : ∃ k, n - front.length = k + 1 := ⟨n - front.length - 1, by omega⟩
    rw [hk, take_succ_cons]
    exact mem_cons_self

end Places

/-! Collecting. -/

section Collecting
variable [DecidableEq κ] (key : β → κ) (id : α → κ) (entry : α → Option (Option β)) (limit : Nat)

/-- An item is passed over once there are enough, if its key is there already, or if it has no entry;
one whose entry cannot be made ends the walk. Says also whether that has happened. -/
def collect : List α → List β → List β × Bool
  | [], out => (out, false)
  | a :: as, out =>
    if limit ≤ out.length ∨ id a ∈ out.map key then collect as out
    else match entry a with
      | none => collect as out
      | some none => (out, true)
      | some (some b) => collect as (out ++ [b])

variable {key id entry limit}

theorem collect_filter (as : List α) : ∀ out : List β,
    collect key id entry limit as out = collect key id entry limit (as.filter fun a => (entry a).isSome) out := by
  induction as with
  | nil => exact fun _ => rfl
  | cons a as ih =>
    intro out
    cases hentry : entry a with
    | none =>
      rw [filter_cons, if_neg (by simp [hentry]), ← ih]
      simp [collect, hentry]
    | some made =>
      rw [filter_cons, if_pos (by simp [hentry])]
      simp only [collect, hentry, ih]

theorem collect_congr {entry' : α → Option (Option β)} (as : List α) (h : ∀ a ∈ as, entry a = entry' a) : ∀ out : List β,
    collect key id entry limit as out = collect key id entry' limit as out := by
  induction as with
  | nil => exact fun _ => rfl
  | cons a as ih =>
    intro out
    have ih := ih fun b hb => h b (mem_cons_of_mem a hb)
    simp only [collect, h a mem_cons_self, ih]

theorem collect_agree {entry' : α → Option (Option β)} (p p' : α → Bool) {as as' : List α}
    (hp : ∀ a ∈ as, (entry a).isSome → p a) (hp' : ∀ a ∈ as', (entry' a).isSome → p' a)
    (has : as.filter p = as'.filter p') (hentry : ∀ a ∈ as.filter p, entry a = entry' a) (out : List β) :
    collect key id entry limit as out = collect key id entry' limit as' out := by
  have hdrop {e : α → Option (Option β)} {q : α → Bool} {l : List α} (hq : ∀ a ∈ l, (e a).isSome → q a) :
      collect key id e limit l out = collect key id e limit (l.filter q) out := by
    rw [collect_filter, collect_filter (l.filter q), List.filter_filter]
    congr 1
    refine filter_congr fun a ha => ?_
    cases hsome : (e a).isSome with
    | false => rfl
    | true => simp [hq a ha hsome]
  rw [hdrop hp, hdrop hp', ← has]
  exact collect_congr _ hentry out

variable (limit) in
theorem collect_extends (hkey : ∀ a b, entry a = some (some b) → key b = id a) (as : List α) : ∀ out : List β,
    ∃ new, (collect key id entry limit as out).1 = out ++ new ∧ (∀ b ∈ new, ∃ a ∈ as, entry a = some (some b)) ∧
      ((out.map key).Nodup → ((out ++ new).map key).Nodup) := by
  induction as with
  | nil => exact fun out => ⟨[], by simp [collect], by simp, by simp⟩
  | cons a as ih =>
    intro out
    have hskip : ∃ new, (collect key id entry limit as out).1 = out ++ new ∧
        (∀ b ∈ new, ∃ c ∈ a :: as, entry c = some (some b)) ∧ ((out.map key).Nodup → ((out ++ new).map key).Nodup) := by
      obtain ⟨new, hnew, hfrom, hnodup⟩ := ih out
      refine ⟨new, hnew, fun b hb => ?_, hnodup⟩
      obtain ⟨c, hc, hentry⟩ := hfrom b hb
      exact ⟨c, mem_cons_of_mem a hc, hentry⟩
    unfold collect
    split
    · exact hskip
    · rename_i hreached
      split
      · exact hskip
      · exact ⟨[], by simp, by simp, by simp⟩
      · rename_i b hentry
        obtain ⟨new, hnew, hfrom, hnodup⟩ := ih (out ++ [b])
        refine ⟨b :: new, by simp [hnew], fun c hc => ?_, fun hout => ?_⟩
        · obtain rfl | hc := mem_cons.mp hc
          · exact ⟨a, mem_cons_self, hentry⟩
          · obtain ⟨d, hd, hentry⟩ := hfrom c hc
            exact ⟨d, mem_cons_of_mem a hd, hentry⟩
        · rw [append_cons]
          refine hnodup ?_
          rw [map_append, nodup_append]
          refine ⟨hout, by simp, fun k hk l hl heq => hreached (Or.inr ?_)⟩
          rw [map_singleton, mem_singleton, hkey a b hentry] at hl
          rw [← hl, ← heq]
          exact hk

variable (key id entry limit) in
/-- The items with an entry and a new key for which there is room. -/
def wanted (as : List α) (out : List β) : List α :=
  (as.filter fun a => (entry a).isSome && !(out.map key).contains (id a)).take (limit - out.length)

variable {as : List α} {out : List β}

theorem wanted_cases (limit : Nat) (out : List β) (hkey : ∀ a b, entry a = some (some b) → key b = id a) {a : α}
    (ha : id a ∉ as.map id) :
    (collect key id entry limit (a :: as) out = collect key id entry limit as out ∧
      wanted key id entry limit (a :: as) out = wanted key id entry limit as out) ∨
    (∃ rest, entry a = some none ∧ collect key id entry limit (a :: as) out = (out, true) ∧
      wanted key id entry limit (a :: as) out = a :: rest) ∨
    (∃ b, entry a = some (some b) ∧
      collect key id entry limit (a :: as) out = collect key id entry limit as (out ++ [b]) ∧
      wanted key id entry limit (a :: as) out = a :: wanted key id entry limit as (out ++ [b])) := by
  unfold wanted
  by_cases hfull : limit ≤ out.length
  · have hroom : limit - out.length = 0 := by omega
    exact Or.inl ⟨by rw [collect, if_pos (Or.inl hfull)], by rw [hroom, take_zero, take_zero]⟩
  by_cases hmem : id a ∈ out.map key
  · exact Or.inl ⟨by rw [collect, if_pos (Or.inr hmem)], by rw [filter_cons, if_neg (by simp [hmem])]⟩
  rw [collect, if_neg (by simp [hfull, hmem])]
  cases hentry : entry a with
  | none => exact Or.inl ⟨rfl, by rw [filter_cons, if_neg (by simp [hentry])]⟩
  | some made =>
    have hroom : limit - out.length = (limit - (out.length + 1)) + 1 := by omega
    rw [filter_cons, if_pos (by simp [hentry, hmem]), hroom, take_succ_cons]
    cases made with
    | none => exact Or.inr (Or.inl ⟨_, rfl, rfl, rfl⟩)
    | some b =>
      refine Or.inr (Or.inr ⟨b, rfl, rfl, ?_⟩)
      rw [length_append, length_singleton]
      congr 2
      refine filter_congr fun c hc => ?_
      have hne : id c ≠ key b := by
        rw [hkey a b hentry]
        exact fun heq => ha (heq ▸ List.mem_map_of_mem hc)
      simp [hne]

/-- The walk ends early exactly if one of the entries it has room for cannot be made. -/
theorem collect_raises (hkey : ∀ a b, entry a = some (some b) → key b = id a) (as : List α)
    (has : (as.map id).Nodup) : ∀ out : List β, (collect key id entry limit as out).2 = false ↔
      ∀ a ∈ wanted key id entry limit as out, entry a ≠ some none := by
  induction as with
  | nil => simp [collect, wanted]
  | cons a as ih =>
    obtain ⟨hnew, has⟩ := nodup_cons.mp has
    intro out
    obtain ⟨hwalk, hwanted⟩ | ⟨rest, hentry, hwalk, hwanted⟩ | ⟨b, hentry, hwalk, hwanted⟩ :=
      wanted_cases limit out hkey hnew
    · rw [hwalk, hwanted, ih has]
    · rw [hwalk, hwanted, forall_mem_cons]
      exact iff_of_false (by simp) fun h => h.1 hentry
    · rw [hwalk, hwanted, ih has, forall_mem_cons, and_iff_right (by simp [hentry])]

/-- Nothing but what is wanted matters. -/
theorem collect_wanted (hkey : ∀ a b, entry a = some (some b) → key b = id a) (as : List α)
    (has : (as.map id).Nodup) : ∀ out : List β, collect key id entry limit as out =
      collect key id entry limit (wanted key id entry limit as out) out := by
  induction as with
  | nil => simp [collect, wanted]
  | cons a as ih =>
    obtain ⟨hnew, has⟩ := nodup_cons.mp has
    intro out
    have hroom : ∀ rest, a :: rest = wanted key id entry limit (a :: as) out →
        ¬(limit ≤ out.length ∨ id a ∈ out.map key) := by
      rintro rest hrest (hfull | hmem)
      · rw [wanted, Nat.sub_eq_zero_of_le hfull] at hrest
        cases hrest
      · have ha := mem_of_mem_take (hrest ▸ mem_cons_self : a ∈ wanted key id entry limit (a :: as) out)
        obtain ⟨-, hother⟩ := Bool.and_eq_true_iff.mp (mem_filter.mp ha).2
        exact absurd hmem (by simpa using hother)
    obtain ⟨hwalk, hwanted⟩ | ⟨rest, hentry, hwalk, hwanted⟩ | ⟨b, hentry, hwalk, hwanted⟩ :=
      wanted_cases limit out hkey hnew
    · rw [hwalk, hwanted, ← ih has]
    · rw [hwalk, hwanted, collect, if_neg (hroom rest hwanted.symm), hentry]
    · rw [hwalk, hwanted, collect, if_neg (hroom _ hwanted.symm), hentry]
      exact ih has _

/-- A walk that gets through adds just what is wanted. -/
theorem keys_collect (hkey : ∀ a b, entry a = some (some b) → key b = id a) (as : List α)
    (has : (as.map id).Nodup) : ∀ out : List β, (collect key id entry limit as out).2 = false →
      (collect key id entry limit as out).1.map key = out.map key ++ (wanted key id entry limit as out).map id := by
  induction as with
  | nil => simp [collect, wanted]
  | cons a as ih =>
    obtain ⟨hnew, has⟩ := nodup_cons.mp has
    intro out hreturns
    obtain ⟨hwalk, hwanted⟩ | ⟨rest, hentry, hwalk, hwanted⟩ | ⟨b, hentry, hwalk, hwanted⟩ :=
      wanted_cases limit out hkey hnew
    · rw [hwalk] at hreturns ⊢
      rw [hwanted, ih has out hreturns]
    · rw [hwalk] at hreturns
      cases hreturns
    · rw [hwalk] at hreturns ⊢
      rw [hwanted, ih has _ hreturns, map_append, map_singleton, map_cons, hkey a b hentry,
        append_assoc, singleton_append]

end Collecting
end Paging
