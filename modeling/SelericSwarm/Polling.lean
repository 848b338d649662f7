import Mathlib.Data.List.Sort

/-! Logs whose entries carry strictly rising positions, and readers that ask for
what lies behind the last position they have seen. -/
namespace Polling
open List
universe u
variable {α : Type u} (position : α → Nat)

/-- Positions rise strictly, from 1 on. -/
structure Rising (log : List α) : Prop where
  pairwise : log.Pairwise fun a b => position a < position b
  pos : ∀ a ∈ log, 0 < position a

/-- The position of the last entry. -/
def last (log : List α) : Nat := (log.getLast?.map position).getD 0

/-- One answer to a reader that has received `seen`. -/
def unseen (seen log : List α) : List α :=
  log.filter fun a => last position seen < position a

variable {position}

theorem Rising.nil : Rising position [] := ⟨.nil, by simp⟩

theorem last_concat (log : List α) (a : α) : last position (log ++ [a]) = position a := by
  simp [last]

variable {log : List α}

section
variable (h : Rising position log)
include h

theorem Rising.le_last {a : α} (ha : a ∈ log) : position a ≤ last position log := by
  obtain rfl | ⟨front, b, rfl⟩ := log.eq_nil_or_concat'
  · cases ha
  · rw [last_concat]
    obtain ha | ha := mem_append.mp ha
    · have := (pairwise_append.mp h.pairwise).2.2 a ha b (by simp)
      omega
    · rw [mem_singleton.mp ha]

theorem Rising.concat {a : α} (ha : ∀ b ∈ log, position b < position a) (hpos : 0 < position a) :
    Rising position (log ++ [a]) where
  pairwise := by
    refine pairwise_append.mpr ⟨h.pairwise, pairwise_singleton _ _, ?_⟩
    intro b hb c hc
    rw [mem_singleton.mp hc]
    exact ha b hb
  pos := by
    intro b hb
    obtain hb | hb := mem_append.mp hb
    · exact h.pos b hb
    · rw [mem_singleton.mp hb]
      exact hpos

theorem Rising.injective {a b : α} (ha : a ∈ log) (hb : b ∈ log) (hab : position a = position b) : a = b := by
  obtain ⟨hpairwise, hpos⟩ := h
  induction log with
  | nil => cases ha
  | cons c log ih =>
    obtain ⟨hc, hlog⟩ := pairwise_cons.mp hpairwise
    obtain hac | hal := mem_cons.mp ha <;> obtain hbc | hbl := mem_cons.mp hb
    · rw [hac, hbc]
    · have := hc b hbl
      rw [hac] at hab
      omega
    · have := hc a hal
      rw [hbc] at hab
      omega
    · exact ih hal hbl hlog fun d hd => hpos d (mem_cons_of_mem c hd)

theorem Rising.filter (p : α → Bool) :
    Rising position (log.filter p) where
  pairwise := h.pairwise.sublist filter_sublist
  pos a ha := h.pos a (mem_filter.mp ha).1

theorem Rising.nodup : log.Nodup := by
  refine h.pairwise.imp ?_
  rintro a b hab rfl
  omega

end

theorem Rising.of_append {seen rest : List α} (h : Rising position (seen ++ rest)) :
    Rising position seen where
  pairwise := (pairwise_append.mp h.pairwise).1
  pos a ha := h.pos a (mem_append_left _ ha)

/-- A reader that has received the front of the log is sent exactly the rest. -/
theorem Rising.unseen_eq {seen rest : List α} (h : Rising position (seen ++ rest)) :
    unseen position seen (seen ++ rest) = rest := by
  have hbehind : ∀ a ∈ seen, ¬last position seen < position a := by
    intro a ha
    have := h.of_append.le_last ha
    omega
  have hahead : ∀ a ∈ rest, last position seen < position a := by
    intro a ha
    obtain rfl | ⟨front, b, rfl⟩ := seen.eq_nil_or_concat'
    · exact h.pos a (by simpa using ha)
    · rw [last_concat]
      exact (pairwise_append.mp h.pairwise).2.2 b (by simp) a ha
  rw [unseen, filter_append, filter_eq_nil_iff.mpr (by simpa using hbehind),
    filter_eq_self.mpr (by simpa using hahead), nil_append]

/-- One poll brings the reader up to date, whatever was filed since the last one. -/
theorem Rising.poll {seen : List α} (h : Rising position log) (hseen : seen <+: log) :
    seen ++ unseen position seen log = log := by
  obtain ⟨rest, rfl⟩ := hseen
  rw [h.unseen_eq]

theorem Rising.eq_insertionSort {entries : List α} (h : Rising position log) (hperm : entries.Perm log) :
    entries.insertionSort (fun a b => position a ≤ position b) = log := by
  have : Std.Total fun a b : α => position a ≤ position b := ⟨fun a b => by omega⟩
  have : IsTrans α fun a b => position a ≤ position b := ⟨fun a b c => by omega⟩
  have hsorted := pairwise_insertionSort (fun a b : α => position a ≤ position b) entries
  have hlog : log.Pairwise fun a b => position a ≤ position b := by
    refine h.pairwise.imp ?_
    intro a b hab
    omega
  refine Perm.eq_of_pairwise ?_ hsorted hlog ((perm_insertionSort _ _).trans hperm)
  intro a b ha hb hab hba
  exact h.injective ((perm_insertionSort _ _).trans hperm |>.subset ha) hb (by omega)

end Polling
