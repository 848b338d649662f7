import Mathlib.Data.List.Nodup
import Mathlib.Data.List.Sort

/-! Insertion-ordered keyed tables, the meaning of a Python dictionary whose
rows carry their own key. No row type is fixed here. -/
open List

namespace Keyed
universe u v
variable {κ : Type u} {α : Type v}

/-- Rows in insertion order; no two rows share a key. -/
@[ext] structure Table (key : α → κ) where
  rows : List α
  nodup : (rows.map key).Nodup

namespace Table
variable {key : α → κ}

def empty : Table key := ⟨[], by simp⟩

instance : Inhabited (Table key) := ⟨empty⟩

@[simp] theorem empty_rows : (empty : Table key).rows = [] := rfl

variable [DecidableEq κ]

/-- `d.get(k)`. -/
def get? (t : Table key) (k : κ) : Option α := t.rows.find? fun a => key a = k

def replace (key : α → κ) (a : α) (rows : List α) : List α :=
  rows.map fun b => if key b = key a then a else b

theorem map_key_replace (a : α) (rows : List α) :
    (replace key a rows).map key = rows.map key := by
  rw [replace, List.map_map]
  apply map_congr_left
  intro b _
  by_cases h : key b = key a <;> simp [h]

/-- `d[key a] = a`: an existing key keeps its place, a new one goes last. -/
def put (t : Table key) (a : α) : Table key :=
  if h : key a ∈ t.rows.map key then
    ⟨replace key a t.rows, by rw [map_key_replace]; exact t.nodup⟩
  else
    ⟨t.rows ++ [a], by
      rw [map_append, nodup_append]
      refine ⟨t.nodup, by simp, ?_⟩
      intro x hx y hy
      simp only [map_cons, map_nil, mem_singleton] at hy
      subst hy
      intro he
      exact h (he ▸ hx)⟩

/-- `d.setdefault(key a, a)`. -/
def setdefault (t : Table key) (a : α) : Table key :=
  if key a ∈ t.rows.map key then t else t.put a

/-- In-place assignment while iterating over the dictionary. -/
def mapRows (t : Table key) (f : α → α) (hf : ∀ a, key (f a) = key a) : Table key :=
  ⟨t.rows.map f, by
    have : key ∘ f = key := funext hf
    rw [List.map_map, this]
    exact t.nodup⟩

def filter (t : Table key) (p : α → Bool) : Table key :=
  ⟨t.rows.filter p, t.nodup.sublist (filter_sublist.map key)⟩

/-- `d.pop(k, None)`. -/
def erase (t : Table key) (k : κ) : Table key :=
  ⟨t.rows.filter (key · ≠ k), (t.nodup.sublist (filter_sublist.map key))⟩

@[simp] theorem get?_empty (k : κ) : (empty : Table key).get? k = none := rfl

variable {t : Table key} {k : κ} {a b : α}

theorem key_of_get? (h : t.get? k = some a) : key a = k := by
  simpa using List.find?_some h

theorem mem_of_get? (h : t.get? k = some a) : a ∈ t.rows :=
  List.mem_of_find?_eq_some h

theorem get?_of_mem (h : a ∈ t.rows) : t.get? (key a) = some a := by
  obtain ⟨rows, hn⟩ := t
  simp only [get?] at *
  induction rows with
  | nil => simp at h
  | cons b rows ih =>
    simp only [map_cons, nodup_cons] at hn
    obtain rfl | ha := mem_cons.mp h
    · simp
    · have hb : key b ≠ key a := fun he => hn.1 (he ▸ List.mem_map_of_mem ha)
      rw [List.find?_cons_of_neg (by simpa using hb)]
      exact ih hn.2 ha

theorem get?_isSome_iff : (t.get? k).isSome ↔ k ∈ t.rows.map key := by
  simp [get?, List.find?_isSome]

theorem get?_eq_none_iff : t.get? k = none ↔ k ∉ t.rows.map key := by
  rw [← get?_isSome_iff, Option.not_isSome_iff_eq_none]

theorem eq_of_mem (ha : a ∈ t.rows) (hb : b ∈ t.rows) (h : key a = key b) : a = b := by
  have h1 := get?_of_mem ha
  rw [h, get?_of_mem hb] at h1
  exact (Option.some.inj h1).symm

theorem put_rows_of_get? (h : t.get? (key a) = some b) : (t.put a).rows = replace key a t.rows := by
  have hm : key a ∈ t.rows.map key := get?_isSome_iff.mp (by simp [h])
  simp [put, hm]

theorem put_rows_of_none (h : t.get? (key a) = none) : (t.put a).rows = t.rows ++ [a] := by
  have hm := get?_eq_none_iff.mp h
  simp [put, hm]

theorem setdefault_of_get? (h : t.get? (key a) = some b) : t.setdefault a = t := by
  have hm : key a ∈ t.rows.map key := get?_isSome_iff.mp (by simp [h])
  simp [setdefault, hm]

theorem setdefault_of_none (h : t.get? (key a) = none) : t.setdefault a = t.put a := by
  have hm := get?_eq_none_iff.mp h
  simp [setdefault, hm]

theorem find?_replace (a : α) (rows : List α) (k : κ) :
    (replace key a rows).find? (fun b => key b = k) =
      (rows.find? (fun b => key b = k)).map fun b => if key b = key a then a else b := by
  rw [replace, List.find?_map]
  congr 2
  funext b
  by_cases h : key b = key a <;> simp [h]

@[simp] theorem get?_put_self (t : Table key) (a : α) : (t.put a).get? (key a) = some a := by
  cases h : t.get? (key a) with
  | none =>
    rw [get?, put_rows_of_none h, List.find?_append]
    rw [get?] at h
    simp [h]
  | some b =>
    have hb := key_of_get? h
    rw [get?, put_rows_of_get? h, find?_replace]
    rw [get?] at h
    simp [h, hb]

theorem get?_put_of_ne (t : Table key) (hk : key a ≠ k) : (t.put a).get? k = t.get? k := by
  cases h : t.get? (key a) with
  | none =>
    rw [get?, put_rows_of_none h, List.find?_append]
    simp [get?, hk]
  | some b =>
    rw [get?, put_rows_of_get? h, find?_replace]
    cases hc : t.rows.find? (fun b => key b = k) with
    | none => simp [get?, hc]
    | some c =>
      have hck : key c = k := by simpa using List.find?_some hc
      simp [get?, hc, hck, Ne.symm hk]

theorem get?_put (t : Table key) (a : α) (k : κ) :
    (t.put a).get? k = if key a = k then some a else t.get? k := by
  by_cases h : key a = k
  · subst h; simp
  · simp [h, get?_put_of_ne t h]

theorem mem_put (h : b ∈ (t.put a).rows) : b = a ∨ b ∈ t.rows := by
  have hg := get?_of_mem h
  rw [get?_put] at hg
  by_cases he : key a = key b
  · rw [if_pos he] at hg
    exact Or.inl (Option.some.inj hg).symm
  · rw [if_neg he] at hg
    exact Or.inr (mem_of_get? hg)

theorem mem_put_self (t : Table key) (a : α) : a ∈ (t.put a).rows := mem_of_get? (get?_put_self t a)

theorem mem_put_of_ne (h : b ∈ t.rows) (hk : key b ≠ key a) : b ∈ (t.put a).rows := by
  refine mem_of_get? ?_ (k := key b)
  rw [get?_put_of_ne t (Ne.symm hk)]
  exact get?_of_mem h

theorem mem_put_or (h : b ∈ (t.put a).rows) : b = a ∨ b ∈ t.rows ∧ key b ≠ key a := by
  by_cases hk : key b = key a
  · exact Or.inl (eq_of_mem h (mem_put_self t a) hk)
  · have hb := get?_of_mem h
    rw [get?_put_of_ne t (Ne.symm hk)] at hb
    exact Or.inr ⟨mem_of_get? hb, hk⟩

theorem mem_erase : a ∈ (t.erase k).rows ↔ a ∈ t.rows ∧ key a ≠ k := by
  simp [erase, mem_filter]

theorem get?_erase (t : Table key) (k l : κ) :
    (t.erase k).get? l = if k = l then none else t.get? l := by
  by_cases h : k = l
  · subst h
    rw [if_pos rfl, get?_eq_none_iff]
    intro hm
    obtain ⟨a, ha, hk⟩ := List.mem_map.mp hm
    exact (mem_erase.mp ha).2 hk
  · rw [if_neg h]
    cases hg : t.get? l with
    | none =>
      rw [get?_eq_none_iff] at hg ⊢
      intro hm
      obtain ⟨a, ha, hk⟩ := List.mem_map.mp hm
      exact hg (List.mem_map.mpr ⟨a, (mem_erase.mp ha).1, hk⟩)
    | some a =>
      have hk := key_of_get? hg
      subst hk
      exact get?_of_mem (mem_erase.mpr ⟨mem_of_get? hg, Ne.symm h⟩)

theorem get?_setdefault_of_some (h : t.get? k = some b) : (t.setdefault a).get? k = some b := by
  cases hg : t.get? (key a) with
  | some c => rw [setdefault_of_get? hg, h]
  | none =>
    have hne : key a ≠ k := by
      rintro rfl
      rw [hg] at h
      cases h
    rw [setdefault_of_none hg, get?_put_of_ne t hne, h]

theorem get?_mapRows (t : Table key) (f : α → α) (hf : ∀ a, key (f a) = key a) (k : κ) :
    (t.mapRows f hf).get? k = (t.get? k).map f := by
  rw [get?, mapRows, List.find?_map, get?]
  congr 2
  funext b
  simp [hf]

/-- Rewriting one row of a group of rows rewrites it in the group, and leaves
every group it does not belong to as it was. -/
theorem filter_put (p : α → Bool) (h : t.get? (key a) = some b) (hp : p a = p b) :
    (t.put a).rows.filter p = replace key a (t.rows.filter p) := by
  rw [put_rows_of_get? h, replace, replace, List.filter_map]
  congr 1
  apply filter_congr
  intro c hc
  by_cases he : key c = key a
  · have hcb : c = b := by
      have hg := get?_of_mem hc
      rw [he, h] at hg
      exact (Option.some.inj hg).symm
    subst hcb
    simp [he, hp]
  · simp [he]

theorem filter_put_new (p : α → Bool) (h : t.get? (key a) = none) :
    (t.put a).rows.filter p = t.rows.filter p ++ if p a then [a] else [] := by
  rw [put_rows_of_none h, filter_append]
  by_cases hp : p a <;> simp [hp]

theorem flatMap_of_get? {β : Type v} (h : t.get? (key a) = some a) {f : α → List β}
    (hf : ∀ b ∈ t.rows, key b ≠ key a → f b = []) : t.rows.flatMap f = f a := by
  obtain ⟨rows, hn⟩ := t
  have hm : a ∈ rows := mem_of_get? h
  clear h
  induction rows with
  | nil => cases hm
  | cons b rows ih =>
    simp only [map_cons, nodup_cons] at hn
    rw [flatMap_cons]
    obtain rfl | ha := mem_cons.mp hm
    · have hrest : rows.flatMap f = [] := by
        rw [flatMap_eq_nil_iff]
        intro c hc
        exact hf c (by simp [hc]) fun he => hn.1 (he ▸ List.mem_map_of_mem hc)
      rw [hrest, append_nil]
    · have hne : key b ≠ key a := fun he => hn.1 (he ▸ List.mem_map_of_mem ha)
      rw [hf b (by simp) hne, nil_append]
      exact ih hn.2 (fun c hc => hf c (by simp [hc])) ha

theorem replace_of_not_mem {rows : List α} (h : ∀ b ∈ rows, key b ≠ key a) : replace key a rows = rows := by
  rw [replace]
  conv_rhs => rw [← List.map_id rows]
  apply map_congr_left
  intro b hb
  simp [h b hb]

theorem replace_append (a : α) (xs ys : List α) :
    replace key a (xs ++ ys) = replace key a xs ++ replace key a ys :=
  map_append

theorem replace_last {rows : List α} (hn : ((rows ++ [b]).map key).Nodup) (hk : key b = key a) :
    replace key a (rows ++ [b]) = rows ++ [a] := by
  rw [replace_append, replace_of_not_mem, replace, map_singleton, if_pos hk]
  intro c hc he
  rw [map_append, nodup_append] at hn
  exact hn.2.2 (key c) (List.mem_map_of_mem hc) (key b) (by simp) (he.trans hk.symm)

end Table

/-- A dictionary whose values do not carry their key. -/
abbrev Dict (κ : Type u) (ν : Type v) := Table (Prod.fst : κ × ν → κ)

/-- The rows of a table under their keys. -/
def Table.toDict {key : α → κ} (t : Table key) : Dict κ α :=
  ⟨t.rows.map fun a => (key a, a), by simpa [List.map_map, Function.comp_def] using t.nodup⟩

theorem Table.toDict_injective {key : α → κ} {t t' : Table key} (h : t.toDict = t'.toDict) : t = t' := by
  apply Table.ext
  have hrows := congrArg (fun d : Dict κ α => d.rows.map Prod.snd) h
  simpa [toDict, List.map_map, Function.comp_def] using hrows

namespace Dict
variable {ν : Type v} [DecidableEq κ]

def empty : Dict κ ν := Table.empty

def get? (d : Dict κ ν) (k : κ) : Option ν := (Table.get? d k).map Prod.snd

def getD (d : Dict κ ν) (k : κ) (default : ν) : ν := (get? d k).getD default

/-- `d[k] = v`. -/
def set (d : Dict κ ν) (k : κ) (v : ν) : Dict κ ν := Table.put d (k, v)

/-- `{**d, **e}`. -/
def update (d e : Dict κ ν) : Dict κ ν := e.rows.foldl (fun d entry => d.set entry.1 entry.2) d

def values (d : Dict κ ν) : List ν := d.rows.map Prod.snd

@[simp] theorem get?_empty (k : κ) : (empty : Dict κ ν).get? k = none := rfl

@[simp] theorem get?_set_self (d : Dict κ ν) (k : κ) (v : ν) : (d.set k v).get? k = some v := by
  have h : Table.get? (Table.put d (k, v)) k = some (k, v) := Table.get?_put_self d (k, v)
  simp [get?, set, h]

theorem get?_set_of_ne (d : Dict κ ν) {k l : κ} (v : ν) (h : k ≠ l) :
    (d.set k v).get? l = d.get? l := by
  simp only [get?, set]
  rw [Table.get?_put_of_ne]
  exact h

theorem get?_set (d : Dict κ ν) (k l : κ) (v : ν) :
    (d.set k v).get? l = if k = l then some v else d.get? l := by
  by_cases h : k = l
  · subst h; simp
  · simp [get?_set_of_ne d v h, h]

theorem get?_erase (d : Dict κ ν) (k l : κ) :
    Dict.get? (Table.erase d k) l = if k = l then none else d.get? l := by
  rw [get?, Table.get?_erase]
  split
  · rfl
  · rfl

/-- An entry taken out and put back last. -/
theorem get?_set_erase (d : Dict κ ν) (k l : κ) (v : ν) :
    (Dict.set (Table.erase d k) k v).get? l = if k = l then some v else d.get? l := by
  rw [get?_set]
  by_cases h : k = l
  · simp [h]
  · simp [h, get?_erase]

theorem foldl_set_empty (d : Dict κ ν) :
    d.rows.foldl (fun d entry => d.set entry.1 entry.2) empty = d := by
  have hfill : ∀ (rows : List (κ × ν)) (filled : Dict κ ν),
      ((filled.rows ++ rows).map Prod.fst).Nodup →
      (rows.foldl (fun d entry => d.set entry.1 entry.2) filled).rows = filled.rows ++ rows := by
    intro rows
    induction rows with
    | nil =>
      intro filled _
      simp
    | cons entry rows ih =>
      intro filled hn
      have hnew : Table.get? filled entry.1 = none := by
        rw [Table.get?_eq_none_iff]
        intro hmem
        rw [map_append, nodup_append] at hn
        exact hn.2.2 _ hmem entry.1 (by simp) rfl
      have hrows : (filled.set entry.1 entry.2).rows = filled.rows ++ [entry] :=
        Table.put_rows_of_none hnew
      rw [foldl_cons, ih, hrows, append_assoc, singleton_append]
      rwa [hrows, append_assoc, singleton_append]
  apply Table.ext
  exact hfill d.rows empty (by simpa [empty] using d.nodup)

theorem mem_values_flatten {β : Type v} {d : Dict κ (List β)} {b : β} :
    b ∈ d.values.flatten ↔ ∃ k, b ∈ d.getD k [] := by
  simp only [values, List.mem_flatten, List.mem_map]
  constructor
  · intro h
    obtain ⟨_, ⟨row, hrow, rfl⟩, hb⟩ := h
    have hg : Table.get? d row.1 = some row := Table.get?_of_mem hrow
    exact ⟨row.1, by simpa [getD, get?, hg] using hb⟩
  · intro h
    obtain ⟨k, hb⟩ := h
    cases hg : Table.get? d k with
    | none => simp [getD, get?, hg] at hb
    | some row => exact ⟨row.2, ⟨row, Table.mem_of_get? hg, rfl⟩, by simpa [getD, get?, hg] using hb⟩

theorem getD_set (d : Dict κ ν) (k l : κ) (v w : ν) :
    (d.set k v).getD l w = if k = l then v else d.getD l w := by
  by_cases h : k = l
  · subst h; simp [getD]
  · simp [getD, get?_set_of_ne d v h, h]

section KeepBest
variable {α : Type v} (key : α → κ) (beats : α → α → Bool)

def keep (d : Dict κ α) (item : α) : Dict κ α :=
  if (d.get? (key item)).all (beats item) then d.set (key item) item else d

/-- One item for each key, replaced by the later ones that beat it. -/
def keepBest (items : List α) : Dict κ α := items.foldl (keep key beats) empty

variable {key beats} {items : List α}

theorem mem_keep {d : Dict κ α} {item : α} {entry : κ × α} (h : entry ∈ (keep key beats d item).rows) :
    entry = (key item, item) ∨ entry ∈ d.rows := by
  unfold keep at h
  split at h
  · exact Table.mem_put h
  · exact Or.inr h

theorem isSome_keep (d : Dict κ α) (item : α) (k : κ) :
    ((keep key beats d item).get? k).isSome = true ↔ (d.get? k).isSome = true ∨ key item = k := by
  unfold keep
  by_cases hk : key item = k
  · subst hk
    cases hg : d.get? (key item) with
    | none => simp
    | some current => cases hb : beats item current <;> simp [hb, hg]
  · split
    · simp [get?_set_of_ne d item hk, hk]
    · simp [hk]

theorem of_mem_keepBest {entry : κ × α} (h : entry ∈ (keepBest key beats items).rows) :
    entry.2 ∈ items ∧ key entry.2 = entry.1 := by
  have hfold : ∀ d : Dict κ α, entry ∈ (items.foldl (keep key beats) d).rows →
      (entry.2 ∈ items ∧ key entry.2 = entry.1) ∨ entry ∈ d.rows := by
    clear h
    induction items with
    | nil => exact fun _ h => Or.inr h
    | cons item items ih =>
      intro d h
      obtain ⟨hmem, hkey⟩ | h := ih (keep key beats d item) h
      · exact Or.inl ⟨by simp [hmem], hkey⟩
      · obtain rfl | h := mem_keep h
        · exact Or.inl ⟨by simp, rfl⟩
        · exact Or.inr h
  exact (hfold empty h).resolve_right (by simp [empty])

theorem mem_of_mem_keepBest {a : α} (h : a ∈ (keepBest key beats items).values) : a ∈ items := by
  obtain ⟨entry, hentry, rfl⟩ := List.mem_map.mp h
  exact (of_mem_keepBest hentry).1

theorem nodup_keepBest : ((keepBest key beats items).values.map key).Nodup := by
  have hkeys : (keepBest key beats items).values.map key = (keepBest key beats items).rows.map Prod.fst := by
    rw [values, List.map_map]
    exact map_congr_left fun entry hentry => (of_mem_keepBest hentry).2
  rw [hkeys]
  exact (keepBest key beats items).nodup

theorem exists_mem_keepBest {a : α} (h : a ∈ items) :
    ∃ b ∈ (keepBest key beats items).values, key b = key a := by
  have hfold : ∀ (d : Dict κ α) (k : κ), ((items.foldl (keep key beats) d).get? k).isSome = true ↔
      (d.get? k).isSome = true ∨ k ∈ items.map key := by
    clear h
    induction items with
    | nil => simp
    | cons item items ih =>
      intro d k
      rw [foldl_cons, ih, isSome_keep, map_cons, mem_cons, or_assoc, @eq_comm _ k]
  have hsome := (hfold empty (key a)).mpr (Or.inr (List.mem_map_of_mem h))
  obtain ⟨b, hb⟩ := Option.isSome_iff_exists.mp hsome
  obtain ⟨entry, hentry, rfl⟩ := Option.map_eq_some_iff.mp hb
  have hmem : entry ∈ (keepBest key beats items).rows := Table.mem_of_get? hentry
  refine ⟨entry.2, List.mem_map_of_mem hmem, ?_⟩
  rw [(of_mem_keepBest hmem).2]
  exact Table.key_of_get? hentry

end KeepBest

end Dict
end Keyed
