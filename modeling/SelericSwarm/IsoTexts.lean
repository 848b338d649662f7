import Mathlib.Data.String.Basic
import SelericSwarm.WindowQueries

/-! Dates read from texts, and the order of the texts of dates. -/
namespace SelericSwarm.Date
open TimeRange List

/-- The number that a text of digits stands for. -/
def digitsOf (chars : List Char) : Option Nat :=
  if chars.all Char.isDigit then some (Nat.ofDigitChars 10 chars 0) else none

/-- Whether the ISO year has the week: years have a fifty-third that start on a Thursday, or on a Wednesday when they are leap. -/
def hasIsoWeek (year week : Nat) (first : Date) : Bool :=
  (1 ≤ week && week ≤ 52) ||
    (week = 53 && (first.toordinal % 7 = 4 || (first.toordinal % 7 = 3 && isLeap year)))

/-- `_isoweek_to_gregorian`: days are counted from the Monday of the week of 4 January. -/
def isoweekToGregorian (year week day : Nat) : Option Date := do
  let first ← dateOf year 1 1
  let fourth ← dateOf year 1 4
  if hasIsoWeek year week first ∧ 1 ≤ day ∧ day ≤ 7 then
    let monday ← fourth.subDays fourth.weekday
    monday.addDays ((week - 1) * 7 + (day - 1))
  else none

/-- `date.fromisoformat`, in all its six forms. -/
def fromisoformat (text : String) : Option Date :=
  match text.toList with
  | [a, b, c, d, '-', m, n, '-', x, y] => do dateOf (← digitsOf [a, b, c, d]) (← digitsOf [m, n]) (← digitsOf [x, y])
  | [a, b, c, d, '-', 'W', v, w, '-', x] => do
    isoweekToGregorian (← digitsOf [a, b, c, d]) (← digitsOf [v, w]) (← digitsOf [x])
  | [a, b, c, d, '-', 'W', v, w] => do isoweekToGregorian (← digitsOf [a, b, c, d]) (← digitsOf [v, w]) 1
  | [a, b, c, d, 'W', v, w, x] => do
    isoweekToGregorian (← digitsOf [a, b, c, d]) (← digitsOf [v, w]) (← digitsOf [x])
  | [a, b, c, d, m, n, x, y] => do dateOf (← digitsOf [a, b, c, d]) (← digitsOf [m, n]) (← digitsOf [x, y])
  | [a, b, c, d, 'W', v, w] => do isoweekToGregorian (← digitsOf [a, b, c, d]) (← digitsOf [v, w]) 1
  | _ => none

theorem digitsOf_padded (width n : Nat) : digitsOf (padded width n).toList = some n := by
  have hall : (padded width n).toList.all Char.isDigit = true := List.all_eq_true.mpr fun _ => isDigit_of_mem_padded
  rw [digitsOf, if_pos hall, value_padded]

theorem day_lt (d : Date) : d.day < 10 ^ 2 := by
  have hlast := d.day_range.2
  have hlength : monthrange d.year d.month ≤ 31 := by
    unfold monthrange
    repeat' split
    all_goals omega
  omega

theorem month_lt (d : Date) : d.month < 10 ^ 2 := by
  have := d.month_range.2
  omega

theorem year_lt (d : Date) : d.year < 10 ^ 4 := by
  have := d.year_range.2
  omega

theorem isoformat_chars (d : Date) : ∃ a b c e m n x y : Char, (padded 4 d.year).toList = [a, b, c, e] ∧
    (padded 2 d.month).toList = [m, n] ∧ (padded 2 d.day).toList = [x, y] ∧
    d.isoformat.toList = [a, b, c, e, '-', m, n, '-', x, y] := by
  obtain ⟨a, b, c, e, hyear⟩ := length_eq_four.mp (length_padded_of_lt (by decide) d.year_lt)
  obtain ⟨m, n, hmonth⟩ := length_eq_two.mp (length_padded_of_lt (by decide) d.month_lt)
  obtain ⟨x, y, hday⟩ := length_eq_two.mp (length_padded_of_lt (by decide) d.day_lt)
  refine ⟨a, b, c, e, m, n, x, y, hyear, hmonth, hday, ?_⟩
  rw [toList_isoformat, hyear, hmonth, hday]
  rfl

theorem dateOf_self (d : Date) : dateOf d.year d.month d.day = some d := by
  rw [dateOf, dif_pos ⟨d.year_range, d.month_range, d.day_range⟩]

/-- A date is read back from its text. -/
theorem fromisoformat_isoformat (d : Date) : fromisoformat d.isoformat = some d := by
  obtain ⟨a, b, c, e, m, n, x, y, hyear, hmonth, hday, htext⟩ := isoformat_chars d
  have hy := digitsOf_padded 4 d.year
  have hm := digitsOf_padded 2 d.month
  have hd := digitsOf_padded 2 d.day
  rw [hyear] at hy
  rw [hmonth] at hm
  rw [hday] at hd
  unfold fromisoformat
  rw [htext]
  simp only [hy, hm, hd, Option.bind_eq_bind, Option.bind_some]
  exact dateOf_self d

/-! Order. -/

theorem append_lt_of_lt {xs ys : List Char} (s t : List Char) (hlength : xs.length = ys.length) (h : xs < ys) :
    xs ++ s < ys ++ t := by
  induction xs generalizing ys with
  | nil =>
    cases ys with
    | nil => exact absurd h (List.lt_irrefl [])
    | cons y ys => cases hlength
  | cons x xs ih =>
    cases ys with
    | nil => cases hlength
    | cons y ys =>
      rw [cons_append, cons_append, cons_lt_cons_iff]
      obtain hlt | ⟨heq, hrest⟩ := cons_lt_cons_iff.mp h
      · exact Or.inl hlt
      · exact Or.inr ⟨heq, ih (Nat.succ.inj hlength) hrest⟩

theorem append_lt_append (xs : List Char) {s t : List Char} (h : s < t) : xs ++ s < xs ++ t := by
  induction xs with
  | nil => exact h
  | cons x xs ih => exact cons_lt_cons_iff.mpr (Or.inr ⟨rfl, ih⟩)

theorem digit_lt {c : Char} (h : c.isDigit = true) : '0' ≤ c ∧ c.toNat - '0'.toNat < 10 := by
  simp only [Char.isDigit, Bool.and_eq_true, decide_eq_true_eq] at h
  have hlast : c.toNat ≤ '9'.toNat := h.2
  refine ⟨h.1, ?_⟩
  have hnine : '9'.toNat = 57 := rfl
  have hzero : '0'.toNat = 48 := rfl
  omega

theorem ofDigitChars_cons_zero (c : Char) (cs : List Char) :
    Nat.ofDigitChars 10 (c :: cs) 0 = 10 ^ cs.length * (c.toNat - '0'.toNat) + Nat.ofDigitChars 10 cs 0 := by
  rw [Nat.ofDigitChars_cons, Nat.mul_zero, Nat.zero_add, Nat.ofDigitChars_eq_ofDigitChars_zero]

theorem ofDigitChars_lt {cs : List Char} (h : ∀ c ∈ cs, c.isDigit = true) : Nat.ofDigitChars 10 cs 0 < 10 ^ cs.length := by
  induction cs with
  | nil => simp
  | cons c cs ih =>
    have hrest := ih fun b hb => h b (mem_cons_of_mem c hb)
    have hfirst := (digit_lt (h c mem_cons_self)).2
    rw [ofDigitChars_cons_zero, length_cons, Nat.pow_succ]
    calc 10 ^ cs.length * (c.toNat - '0'.toNat) + Nat.ofDigitChars 10 cs 0
        < 10 ^ cs.length * (c.toNat - '0'.toNat) + 10 ^ cs.length := by omega
      _ = 10 ^ cs.length * (c.toNat - '0'.toNat + 1) := (Nat.mul_succ _ _).symm
      _ ≤ 10 ^ cs.length * 10 := Nat.mul_le_mul_left _ hfirst

theorem lt_of_ofDigitChars_lt {xs ys : List Char} (hx : ∀ c ∈ xs, c.isDigit = true) (hy : ∀ c ∈ ys, c.isDigit = true)
    (hlength : xs.length = ys.length) (h : Nat.ofDigitChars 10 xs 0 < Nat.ofDigitChars 10 ys 0) : xs < ys := by
  induction xs generalizing ys with
  | nil =>
    cases ys with
    | nil => exact absurd h (Nat.lt_irrefl _)
    | cons y ys => cases hlength
  | cons x xs ih =>
    cases ys with
    | nil => cases hlength
    | cons y ys =>
      have hsame : xs.length = ys.length := Nat.succ.inj hlength
      have hx' := fun b hb => hx b (mem_cons_of_mem x hb)
      have hy' := fun b hb => hy b (mem_cons_of_mem y hb)
      rw [ofDigitChars_cons_zero, ofDigitChars_cons_zero, hsame] at h
      have hfirst : x.toNat - '0'.toNat ≤ y.toNat - '0'.toNat := by
        by_contra hgt
        have hmul := Nat.mul_le_mul_left (10 ^ ys.length) (Nat.lt_of_not_le hgt)
        rw [Nat.mul_succ] at hmul
        have hrest := ofDigitChars_lt hy'
        omega
      have hzero : '0'.toNat ≤ x.toNat := (digit_lt (hx x mem_cons_self)).1
      have hzero' : '0'.toNat ≤ y.toNat := (digit_lt (hy y mem_cons_self)).1
      rw [cons_lt_cons_iff]
      obtain hlt | heq := Nat.lt_or_eq_of_le hfirst
      · exact Or.inl (show x.toNat < y.toNat by omega)
      · refine Or.inr ⟨Char.toNat_inj.mp (by omega), ih hx' hy' hsame ?_⟩
        rw [heq] at h
        omega

theorem padded_lt {width m n : Nat} (hwidth : 0 < width) (hm : m < 10 ^ width) (hn : n < 10 ^ width) (h : m < n) :
    (padded width m).toList < (padded width n).toList := by
  apply lt_of_ofDigitChars_lt (fun _ => isDigit_of_mem_padded) (fun _ => isDigit_of_mem_padded)
  · rw [length_padded_of_lt hwidth hm, length_padded_of_lt hwidth hn]
  · rwa [value_padded, value_padded]

theorem parts_of_toordinal_lt {d e : Date} (h : d.toordinal < e.toordinal) :
    d.year < e.year ∨ d.year = e.year ∧ (d.month < e.month ∨ d.month = e.month ∧ d.day < e.day) := by
  obtain hlt | heq | hgt := Nat.lt_trichotomy d.year e.year
  · exact Or.inl hlt
  · refine Or.inr ⟨heq, ?_⟩
    obtain hlt | heq' | hgt := Nat.lt_trichotomy d.month e.month
    · exact Or.inl hlt
    · refine Or.inr ⟨heq', ?_⟩
      rw [toordinal, toordinal, heq, heq'] at h
      omega
    · have := toordinal_lt_of_month heq.symm hgt
      omega
  · have := toordinal_lt_of_year hgt
    omega

theorem cons_lt_cons (c : Char) {s t : List Char} (h : s < t) : c :: s < c :: t := cons_lt_cons_iff.mpr (Or.inr ⟨rfl, h⟩)

theorem isoformat_lt {d e : Date} (h : d.toordinal < e.toordinal) : d.isoformat < e.isoformat := by
  have hyears := (length_padded_of_lt (by decide) d.year_lt).trans (length_padded_of_lt (by decide) e.year_lt).symm
  have hmonths := (length_padded_of_lt (by decide) d.month_lt).trans (length_padded_of_lt (by decide) e.month_lt).symm
  rw [String.lt_iff_toList_lt, toList_isoformat, toList_isoformat]
  obtain hyear | ⟨hyear, hmonth | ⟨hmonth, hday⟩⟩ := parts_of_toordinal_lt h
  · exact append_lt_of_lt _ _ hyears (padded_lt (by decide) d.year_lt e.year_lt hyear)
  · have htext := padded_lt (by decide) d.month_lt e.month_lt hmonth
    rw [hyear]
    apply append_lt_append
    apply cons_lt_cons
    exact append_lt_of_lt _ _ hmonths htext
  · have htext := padded_lt (by decide) d.day_lt e.day_lt hday
    rw [hyear, hmonth]
    apply append_lt_append
    apply cons_lt_cons
    apply append_lt_append
    apply cons_lt_cons
    exact htext

theorem toordinal_injective {d e : Date} (h : d.toordinal = e.toordinal) : d = e := by
  have hyear : d.year = e.year := by
    obtain hlt | heq | hgt := Nat.lt_trichotomy d.year e.year
    · have := toordinal_lt_of_year hlt
      omega
    · exact heq
    · have := toordinal_lt_of_year hgt
      omega
  have hmonth : d.month = e.month := by
    obtain hlt | heq | hgt := Nat.lt_trichotomy d.month e.month
    · have := toordinal_lt_of_month hyear hlt
      omega
    · exact heq
    · have := toordinal_lt_of_month hyear.symm hgt
      omega
  rw [toordinal, toordinal, hyear, hmonth] at h
  exact Date.ext hyear hmonth (by omega)

theorem isoformat_le_iff {d e : Date} : d.isoformat ≤ e.isoformat ↔ d.toordinal ≤ e.toordinal := by
  constructor
  · intro h
    by_contra hgt
    exact absurd h (not_le.mpr (isoformat_lt (Nat.lt_of_not_le hgt)))
  · intro h
    obtain hlt | heq := Nat.lt_or_eq_of_le h
    · exact (isoformat_lt hlt).le
    · rw [toordinal_injective heq]

end SelericSwarm.Date
