import SelericSwarm.Table

/-! SQL statements over keyed tables: rows picked by a condition, changed in
place, joined and aggregated. No row type is fixed here. -/
open List

namespace Keyed
universe u v
variable {κ : Type u} {α : Type v}

/-- `COALESCE(MAX(column), 0)`. -/
def coalesceMax (column : List Nat) : Nat := column.max?.getD 0

theorem le_coalesceMax {column : List Nat} {n : Nat} (h : n ∈ column) : n ≤ coalesceMax column :=
  List.le_max?_getD_of_mem h

theorem coalesceMax_mem {column : List Nat} (h : column ≠ []) : coalesceMax column ∈ column := by
  rw [coalesceMax]
  cases hm : column.max? with
  | none => exact absurd (List.max?_eq_none_iff.mp hm) h
  | some n => exact List.max?_mem hm

theorem coalesceMax_le {column : List Nat} {n : Nat} (h : ∀ m ∈ column, m ≤ n) :
    coalesceMax column ≤ n := by
  by_cases hc : column = []
  · subst hc
    exact Nat.zero_le n
  · exact h _ (coalesceMax_mem hc)

/-- The maximum depends only on which values occur. -/
theorem coalesceMax_congr {column column' : List Nat} (h : ∀ n, n ∈ column ↔ n ∈ column') :
    coalesceMax column = coalesceMax column' := by
  have hle : coalesceMax column ≤ coalesceMax column' :=
    coalesceMax_le fun m hm => le_coalesceMax ((h m).mp hm)
  have hge : coalesceMax column' ≤ coalesceMax column :=
    coalesceMax_le fun m hm => le_coalesceMax ((h m).mpr hm)
  omega

theorem foldl_max_eq_coalesceMax (column : List Nat) : column.foldl max 0 = coalesceMax column := by
  rw [foldl_max, coalesceMax]
  omega

namespace Table
variable {key : α → κ}

theorem ext_rows {t t' : Table key} (h : t.rows = t'.rows) : t = t' := by
  cases t
  cases t'
  cases h
  rfl

/-- `UPDATE ... SET ... WHERE ... RETURNING *`: the rows it changed, and the table. -/
def updateWhere (t : Table key) (p : α → Bool) (f : α → α) (hf : ∀ a, key (f a) = key a) :
    List α × Table key :=
  ((t.rows.filter p).map f, t.mapRows (fun a => if p a then f a else a) (by
    intro a
    split
    · exact hf a
    · rfl))

/-- A condition that fixes the key picks the row of that key or nothing. -/
theorem filter_key [DecidableEq κ] {t : Table key} {p : α → Bool} {k : κ}
    (hp : ∀ a, p a = true → key a = k) :
    t.rows.filter p = ((t.get? k).filter p).toList := by
  obtain ⟨rows, hn⟩ := t
  simp only [get?]
  induction rows with
  | nil => rfl
  | cons b rows ih =>
    simp only [map_cons, nodup_cons] at hn
    by_cases hb : key b = k
    · have hrest : rows.filter p = [] := by
        rw [filter_eq_nil_iff]
        intro c hc hpc
        exact hn.1 (hb.trans (hp c hpc).symm ▸ List.mem_map_of_mem hc)
      by_cases hpb : p b = true <;> simp [hb, hpb, hrest, Option.filter]
    · have hpb : ¬p b = true := fun h => hb (hp b h)
      rw [filter_cons_of_neg hpb, ih hn.2, List.find?_cons_of_neg (by simpa using hb)]

section UpdateWhere
variable [DecidableEq κ] {t : Table key} {p : α → Bool} {f : α → α} {hf : ∀ a, key (f a) = key a} {k : κ}

theorem updateWhere_hit (hp : ∀ a, p a = true → key a = k) {a : α} (h : t.get? k = some a)
    (ha : p a = true) : t.updateWhere p f hf = ([f a], t.put (f a)) := by
  rw [updateWhere, filter_key hp, h]
  refine Prod.ext (by simp [Option.filter, ha]) (ext_rows ?_)
  have hk : t.get? (key (f a)) = some a := by rw [hf, key_of_get? h, h]
  rw [put_rows_of_get? hk, mapRows, replace]
  apply map_congr_left
  intro b hb
  by_cases hab : key b = key (f a)
  · obtain rfl : b = a := eq_of_mem hb (mem_of_get? h) (hab.trans (hf a))
    simp [ha, hf]
  · have hpb : ¬p b = true := fun h' => hab ((hp b h').trans ((key_of_get? h).symm.trans (hf a).symm))
    simp [hab, hpb]

theorem updateWhere_miss (hp : ∀ a, p a = true → key a = k)
    (h : ∀ a, t.get? k = some a → p a = false) : t.updateWhere p f hf = ([], t) := by
  have hnone : ∀ b ∈ t.rows, ¬p b = true := by
    intro b hb hpb
    have := h b (hp b hpb ▸ get?_of_mem hb)
    rw [hpb] at this
    cases this
  rw [updateWhere]
  refine Prod.ext (by simpa using hnone) (ext_rows ?_)
  rw [mapRows]
  conv_rhs => rw [← List.map_id t.rows]
  apply map_congr_left
  intro b hb
  simp [hnone b hb]

end UpdateWhere

section Join
variable {κ' : Type u} {β : Type v} {key' : β → κ'} [DecidableEq κ']

/-- `SELECT ... FROM t JOIN s ON s.key = t.column WHERE ...`. -/
def join (t : Table key) (s : Table key') (column : α → κ') (p : α → β → Bool) : List (α × β) :=
  t.rows.flatMap fun a => (s.rows.filter fun b => key' b = column a && p a b).map (a, ·)

theorem join_eq (t : Table key) (s : Table key') (column : α → κ') (p : α → β → Bool) :
    t.join s column p = t.rows.flatMap fun a => (((s.get? (column a)).filter (p a)).map (a, ·)).toList := by
  rw [join]
  congr 1
  funext a
  rw [filter_key (k := column a) (by simp +contextual)]
  cases hg : s.get? (column a) with
  | none => rfl
  | some b =>
    have hb := key_of_get? hg
    by_cases hp : p a b = true <;> simp [Option.filter, hb, hp]

theorem head?_join [DecidableEq κ] {t : Table key} {s : Table key'} {column : α → κ'}
    {p : α → β → Bool} {k : κ} (hp : ∀ a b, p a b = true → key a = k) :
    (t.join s column p).head? =
      (t.get? k).bind fun a => ((s.get? (column a)).filter (p a)).map (a, ·) := by
  have hother : ∀ a, key a ≠ k → (((s.get? (column a)).filter (p a)).map (a, ·)).toList = [] := by
    intro a ha
    cases hg : s.get? (column a) with
    | none => rfl
    | some b =>
      have hpb : ¬p a b = true := fun h => ha (hp a b h)
      simp [Option.filter, hpb]
  rw [join_eq]
  cases hg : t.get? k with
  | none =>
    rw [flatMap_eq_nil_iff.mpr, Option.bind_none, List.head?_nil]
    intro a ha
    refine hother a ?_
    rintro rfl
    rw [get?_of_mem ha] at hg
    cases hg
  | some a =>
    have hk := key_of_get? hg
    subst hk
    rw [flatMap_of_get? hg fun b _ hb => hother b hb, Option.bind_some, Option.head?_toList]

end Join

end Table
end Keyed
