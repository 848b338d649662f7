import Mathlib.Data.List.Basic
import SelericSwarm.Table

/-! Items written into one dictionary, some entries each: the last write to a key stands. -/
namespace Keyed.Dict
open List Option
universe u v w
variable {κ : Type u} {ν : Type v} {α : Type w} [DecidableEq κ]

section Written
variable (writes : α → List (κ × ν))

/-- `for a in items: for k, v in writes(a): d[k] = v` -/
def written (items : List α) : Dict κ ν := (items.flatMap writes).foldl (fun d entry => d.set entry.1 entry.2) empty

variable {writes} {items : List α} {a : α} {k : κ} {v : ν}

theorem get?_foldl_writes (entries : List (κ × ν)) (k : κ) : ∀ d : Dict κ ν,
    (entries.foldl (fun d entry => d.set entry.1 entry.2) d).get? k =
      ((entries.filter fun entry => entry.1 = k).getLast?.map Prod.snd).or (d.get? k) := by
  induction entries with
  | nil => exact fun _ => rfl
  | cons entry entries ih =>
    intro d
    rw [foldl_cons, ih]
    by_cases hk : entry.1 = k
    · subst hk
      rw [get?_set_self, filter_cons_of_pos (by simp), List.getLast?_cons]
      cases (entries.filter fun e => e.1 = entry.1).getLast? <;> rfl
    · rw [get?_set_of_ne _ _ hk, filter_cons_of_neg (by simpa using hk)]

theorem get?_written (items : List α) (k : κ) : (written writes items).get? k =
    ((items.flatMap writes).filter fun entry => entry.1 = k).getLast?.map Prod.snd := by
  rw [written, get?_foldl_writes, get?_empty, or_none]

theorem exists_of_get?_written (h : (written writes items).get? k = some v) : ∃ a ∈ items, (k, v) ∈ writes a := by
  rw [get?_written] at h
  obtain ⟨entry, hlast, rfl⟩ := map_eq_some_iff.mp h
  obtain ⟨hmem, hk⟩ := mem_filter.mp (mem_of_getLast? hlast)
  obtain ⟨a, ha, hentry⟩ := mem_flatMap.mp hmem
  obtain rfl := of_decide_eq_true hk
  exact ⟨a, ha, hentry⟩

theorem get?_written_eq_none : (written writes items).get? k = none ↔ ∀ a ∈ items, ∀ v, (k, v) ∉ writes a := by
  rw [get?_written, map_eq_none_iff, List.getLast?_eq_none_iff, filter_eq_nil_iff]
  constructor
  · intro h a ha v hv
    exact h (k, v) (mem_flatMap.mpr ⟨a, ha, hv⟩) (by simp)
  · intro h entry hentry hk
    obtain ⟨a, ha, hmem⟩ := mem_flatMap.mp hentry
    obtain rfl := of_decide_eq_true hk
    exact h a ha entry.2 hmem

theorem get?_written_of_agree (ha : a ∈ items) (hv : (k, v) ∈ writes a)
    (hagree : ∀ b ∈ items, ∀ v', (k, v') ∈ writes b → v' = v) : (written writes items).get? k = some v := by
  cases hget : (written writes items).get? k with
  | none => exact absurd hv (get?_written_eq_none.mp hget a ha v)
  | some v' =>
    obtain ⟨b, hb, hv'⟩ := exists_of_get?_written hget
    rw [hagree b hb v' hv']

theorem get?_written_concat (hv : (k, v) ∈ writes a) (hagree : ∀ v', (k, v') ∈ writes a → v' = v) :
    (written writes (items ++ [a])).get? k = some v := by
  have hlast : ∀ entries : List (κ × ν), (k, v) ∈ entries → (∀ v', (k, v') ∈ entries → v' = v) →
      (entries.filter fun entry => entry.1 = k).getLast?.map Prod.snd = some v := by
    intro entries hmem hall
    cases hget : (entries.filter fun entry => entry.1 = k).getLast? with
    | none =>
      rw [List.getLast?_eq_none_iff, filter_eq_nil_iff] at hget
      exact absurd (decide_eq_true rfl) (hget (k, v) hmem)
    | some entry =>
      obtain ⟨hentry, hk⟩ := mem_filter.mp (mem_of_getLast? hget)
      obtain rfl := of_decide_eq_true hk
      rw [map_some, hall entry.2 hentry]
  have hown := hlast (writes a) hv hagree
  rw [get?_written, flatMap_append, flatMap_singleton, filter_append, List.getLast?_append]
  cases hfound : ((writes a).filter fun entry => entry.1 = k).getLast? with
  | none =>
    rw [hfound] at hown
    cases hown
  | some entry =>
    rw [hfound] at hown
    exact hown

/-- Two ways of writing the same, and one thing only, under a key. -/
theorem get?_written_congr {β : Type w} {writes' : β → List (κ × ν)} {items' : List β}
    (hsame : ∀ v, (∃ a ∈ items, (k, v) ∈ writes a) ↔ ∃ b ∈ items', (k, v) ∈ writes' b)
    (hagree : ∀ a ∈ items, ∀ b ∈ items, ∀ v v', (k, v) ∈ writes a → (k, v') ∈ writes b → v = v') :
    (written writes items).get? k = (written writes' items').get? k := by
  cases hget : (written writes items).get? k with
  | none =>
    refine (get?_written_eq_none.mpr fun b hb v hv => ?_).symm
    obtain ⟨a, ha, hmem⟩ := (hsame v).mpr ⟨b, hb, hv⟩
    exact get?_written_eq_none.mp hget a ha v hmem
  | some v =>
    obtain ⟨a, ha, hv⟩ := exists_of_get?_written hget
    obtain ⟨b, hb, hv'⟩ := (hsame v).mp ⟨a, ha, hv⟩
    refine (get?_written_of_agree hb hv' fun c hc v' hmem => ?_).symm
    obtain ⟨d, hd, hmem'⟩ := (hsame v').mpr ⟨c, hc, hmem⟩
    exact hagree d hd a ha v' v hmem' hv

theorem get?_written_concat_of_ne (h : ∀ v, (k, v) ∉ writes a) :
    (written writes (items ++ [a])).get? k = (written writes items).get? k := by
  have hnone : (writes a).filter (fun entry => entry.1 = k) = [] := by
    refine filter_eq_nil_iff.mpr fun entry hentry hk => ?_
    obtain rfl := of_decide_eq_true hk
    exact h entry.2 hentry
  rw [get?_written, get?_written, flatMap_append, flatMap_singleton, filter_append, hnone, append_nil]

end Written
end Keyed.Dict
