import Mathlib
import SelericSwarm.RedactionPatterns
import SelericSwarm.RegexSeparators

/-! The audit of the numbers in an answer. -/
open List

namespace SelericSwarm
open Backtracking

/-- What Python knows of values that are printed, and a little more of its texts. -/
structure AuditText (κ : Type) extends PythonText κ where
  /-- `int(value)` of a float that `is_integer` -/
  whole : κ → Option Int
  /-- A number with a comma between the thousands. -/
  grouped : κ → Option String
  /-- A text as a value. -/
  text : String → κ
  str_text : ∀ s, str (text s) = s
  whole_text : ∀ s, whole (text s) = none
  /-- But for the commas a number is printed in the same way. -/
  grouped_commas : ∀ v s, grouped v = some s → s.toList.filter (· ≠ ',') = (str v).toList.filter (· ≠ ',')
  space_ascii : ∀ c : Char, c.toNat < 128 → space c = (c = ' ' || 9 ≤ c.toNat && c.toNat ≤ 13 || 28 ≤ c.toNat && c.toNat ≤ 31)
  space_word : ∀ c, space c = true → word c = false
  digit_word : ∀ c, digit c = true → word c = true
  word_other : ∀ c ∈ ['İ', 'ı', 'ſ', '\u212a'], word c = true

namespace NumericAudit

/-- A row of evidence: its value, and the dates of its `time_range` as they are printed. -/
structure Row (κ : Type) where
  value : Option κ := none
  start : Option String := none
  stop : Option String := none

/-- `[A-Za-z]` -/
def letter (c : Char) : Bool := c.isAlpha

def sign (c : Char) : Bool := c = '-' || c = '+'

/-- `_normalize_number` -/
def normalize (token : List Char) : List Char := token.filter fun c => c ≠ ',' && c ≠ '+'

section Audit
variable {κ : Type} (py : AuditText κ)

/-- `\d[\d,]*(?:\.\d+)?` -/
def body : Regex :=
  .seq (.char py.digit) (.seq (.many 0 (.char fun c => py.digit c || c = ','))
    (.opt (.seq (.char (· = '.')) (.many 1 (.char py.digit)))))

def numberRe : Regex := .seq (.notBehind letter) (.seq (.opt (.char sign)) (.seq (body py) (.notAhead (.char letter))))

def isoDateRe : Regex :=
  let dash (c : Char) : Bool := c = '-'
  .seq (.boundary py.word) (.seq (.literal [(· = '2'), (· = '0'), py.digit, py.digit, dash, py.digit, py.digit, dash,
    py.digit, py.digit]) (.boundary py.word))

/-- `ARTIFACT_ID_RE` without the space in front of it. -/
def artifactId : Regex :=
  .seq (.opt (.char (· ∈ "[(".toList))) (.seq (.boundary py.word)
    (.seq (.alt (insensitive "ev") (.alt (insensitive "cl") (.alt (insensitive "m") (insensitive "t"))))
      (.seq (.char (· = '-')) (.seq (.many 1 (.char alphanumeric)) (.seq (.boundary py.word)
        (.opt (.char (· ∈ "])".toList))))))))

def artifactIdRe : Regex := .seq (.many 0 (.char py.space)) (artifactId py)

/-- The text without dates and artifact ids. -/
def cleaned (text : List Char) : List Char :=
  (artifactIdRe py).sub (fun _ => [' ']) ((isoDateRe py).sub (fun _ => [' ']) text)

/-- What `_NUMBER_RE` finds in a text as it stands. -/
def numbers (text : List Char) : List (List Char) := ((numberRe py).finditer text).map Prod.fst

def extractNumbers (text : List Char) : List (List Char) := (numbers py (cleaned py text)).map normalize

/-- The parts of the dates of a row, and the dates without their dashes. -/
def days (row : Row κ) : List (List Char) :=
  (row.start.toList ++ row.stop.toList).flatMap fun day =>
    if day = "" then [] else day.toList.splitOn '-' ++ [day.toList.filter (· ≠ '-')]

def rowNumbers (row : Row κ) : List (List Char) :=
  match row.value with
  | none => []
  | some value =>
    normalize (py.str value).toList :: (py.whole value).toList.map (fun n => (toString n).toList) ++ days row

/-- `allowed_numbers`; without a query its text is empty. -/
def allowedNumbers (evidence : List (Row κ)) (extra : List (Option κ)) (query : List Char) : List (List Char) :=
  (extra.reduceOption.map (fun item => normalize (py.str item).toList) ++ evidence.flatMap (rowNumbers py) ++
    (numbers py query).map normalize).filter (· ≠ [])

def unauditedNumbers (text : List Char) (evidence : List (Row κ)) (extra : List (Option κ)) (query : List Char) :
    List (List Char) :=
  (extractNumbers py text).filter fun token =>
    token ∉ ["".toList, "-".toList, ".".toList] && token ∉ allowedNumbers py evidence extra query

end Audit

/-! Spaces keep the numbers, the dates and the ids of a text apart. -/

section Separators
variable {κ : Type} {py : AuditText κ}

theorem space_apart {c : Char} (hc : py.space c = true) :
    py.word c = false ∧ py.digit c = false ∧ letter c = false ∧ alphanumeric c = false := by
  have hword := py.space_word c hc
  have hascii : ∀ p : Char → Bool, (∀ d : Char, p d = true → d.isAlphanum = true) → p c = false := by
    intro p hp
    by_contra h
    have halnum := hp c (by simpa using h)
    have hsmall : c.toNat < 128 := by
      simp only [Char.isAlphanum, Char.isAlpha, Char.isUpper, Char.isLower, Char.isDigit, ge_iff_le, UInt32.le_iff_toNat_le,
        Bool.or_eq_true, Bool.and_eq_true, decide_eq_true_eq] at halnum
      have hbound : c.toNat ≤ 122 := by
        obtain ((h | h) | h) := halnum
        · exact h.2.trans (by decide)
        · exact h.2.trans (by decide)
        · exact h.2.trans (by decide)
      omega
    rw [py.word_ascii c hsmall, halnum] at hword
    cases hword
  refine ⟨hword, ?_, ?_, ?_⟩
  · by_contra h
    rw [py.digit_word c (by simpa using h)] at hword
    cases hword
  · exact hascii letter fun d hd => by rw [Char.isAlphanum, show d.isAlpha = true from hd, Bool.true_or]
  · by_contra h
    have h : alphanumeric c = true := by simpa using h
    rw [alphanumeric, Bool.or_eq_true] at h
    obtain h | h := h
    · exact absurd h (by simpa using hascii Char.isAlphanum fun _ hd => hd)
    · rw [py.word_other c (of_decide_eq_true h)] at hword
      cases hword

theorem not_space {c : Char} (hsmall : c.toNat < 128)
    (h : (c = ' ' || 9 ≤ c.toNat && c.toNat ≤ 13 || 28 ≤ c.toNat && c.toNat ≤ 31) = false) : py.space c = false :=
  (py.space_ascii c hsmall).trans h

theorem avoids_member {text : List Char} (h : ∀ c ∈ text, py.space c = false) (c : Char) (hc : py.space c = true) :
    decide (c ∈ text) = false :=
  decide_eq_false fun hmem => by rw [h c hmem] at hc; cases hc

theorem avoids_char {d : Char} (h : py.space d = false) (c : Char) (hc : py.space c = true) : decide (c = d) = false :=
  decide_eq_false fun heq => by rw [heq, h] at hc; cases hc

theorem isAlpha_of_anyCase {l c : Char} (hl : l.isAlpha = true) (hother : otherCases l = []) (h : anyCase l c = true) :
    letter c = true := by
  rw [anyCase, hother, Bool.or_eq_true, decide_eq_true_eq] at h
  obtain hlower | hnone := h
  · by_cases hupper : c.isUpper = true
    · rw [letter, Char.isAlpha, hupper, Bool.true_or]
    · have hsame : c.toLower = c := by
        unfold Char.toLower
        split
        · next hrange =>
          exact absurd (by simpa [Char.isUpper] using hrange) hupper
        · rfl
      rw [letter, ← hsame, hlower, hl]
  · cases of_decide_eq_true hnone

theorem isoDateRe_avoids : (isoDateRe py).Avoids py.space := by
  have hdigit : ∀ c, py.space c = true → py.digit c = false := fun c hc => (space_apart hc).2.1
  have hword : ∀ c, py.space c = true → py.word c = false := fun c hc => (space_apart hc).1
  have hdash : ∀ c, py.space c = true → decide (c = '-') = false := avoids_char (not_space (by decide) (by decide))
  have htwo : ∀ c, py.space c = true → decide (c = '2') = false := avoids_char (not_space (by decide) (by decide))
  have hzero : ∀ c, py.space c = true → decide (c = '0') = false := avoids_char (not_space (by decide) (by decide))
  exact ⟨hword, ⟨htwo, hzero, hdigit, hdigit, hdash, hdigit, hdigit, hdash, hdigit, hdigit, trivial⟩, hword⟩

theorem insensitive_avoids {text : String}
    (h : (text.toList.all fun l => l.toLower.isAlpha && (otherCases l.toLower).isEmpty) = true) :
    (insensitive text).Avoids py.space := by
  rw [List.all_eq_true] at h
  unfold insensitive
  revert h
  induction text.toList with
  | nil => exact fun _ => trivial
  | cons l letters ih =>
    intro h
    refine ⟨fun c hc => ?_, ih fun l hl => h l (mem_cons_of_mem _ hl)⟩
    by_contra hmatch
    obtain ⟨hl, hother⟩ := Bool.and_eq_true_iff.mp (h l mem_cons_self)
    have hletter := isAlpha_of_anyCase hl (List.isEmpty_iff.mp hother) (by simpa using hmatch)
    rw [(space_apart hc).2.2.1] at hletter
    cases hletter

theorem artifactId_avoids : (artifactId py).Avoids py.space := by
  have hword : ∀ c, py.space c = true → py.word c = false := fun c hc => (space_apart hc).1
  have hdash : ∀ c, py.space c = true → decide (c = '-') = false := avoids_char (not_space (by decide) (by decide))
  have hopen : ∀ c ∈ "[(".toList, py.space c = false := by
    intro c hc
    have hcases : c = '[' ∨ c = '(' := by simpa using hc
    obtain rfl | rfl := hcases
    · exact not_space (by decide) (by decide)
    · exact not_space (by decide) (by decide)
  have hclose : ∀ c ∈ "])".toList, py.space c = false := by
    intro c hc
    have hcases : c = ']' ∨ c = ')' := by simpa using hc
    obtain rfl | rfl := hcases
    · exact not_space (by decide) (by decide)
    · exact not_space (by decide) (by decide)
  have hev : (insensitive "ev").Avoids py.space := insensitive_avoids (by decide)
  have hcl : (insensitive "cl").Avoids py.space := insensitive_avoids (by decide)
  have hm : (insensitive "m").Avoids py.space := insensitive_avoids (by decide)
  have ht : (insensitive "t").Avoids py.space := insensitive_avoids (by decide)
  have hbody : ∀ c, py.space c = true → alphanumeric c = false := fun c hc => (space_apart hc).2.2.2
  exact ⟨⟨avoids_member hopen, trivial⟩, hword, ⟨hev, hcl, hm, ht⟩, hdash, hbody, hword, avoids_member hclose, trivial⟩

theorem body_avoids : (body py).Avoids py.space := by
  have hdigit : ∀ c, py.space c = true → py.digit c = false := fun c hc => (space_apart hc).2.1
  have hcomma : ∀ c, py.space c = true → decide (c = ',') = false := avoids_char (not_space (by decide) (by decide))
  have hpoint : ∀ c, py.space c = true → decide (c = '.') = false := avoids_char (not_space (by decide) (by decide))
  exact ⟨hdigit, fun c hc => by dsimp only; rw [hdigit c hc, hcomma c hc]; rfl, ⟨hpoint, hdigit⟩, trivial⟩

theorem sign_avoids (c : Char) (hc : py.space c = true) : sign c = false := by
  have hminus : decide (c = '-') = false := avoids_char (not_space (by decide) (by decide)) c hc
  have hplus : decide (c = '+') = false := avoids_char (not_space (by decide) (by decide)) c hc
  rw [sign, hminus, hplus]
  rfl

theorem numberRe_avoids : (numberRe py).Avoids py.space := by
  have hletter : ∀ c, py.space c = true → letter c = false := fun c hc => (space_apart hc).2.2.1
  exact ⟨hletter, ⟨sign_avoids, trivial⟩, body_avoids, hletter⟩

theorem artifactId_takes : (artifactId py).Takes :=
  ((((Regex.takes_char _).seq_left _).seq_right _).seq_right _).seq_right _

/-! What is found between two spaces does not depend on the rest of the text. -/

/-- What `_NUMBER_RE` finds in a text that is cleaned. -/
def found (py : AuditText κ) (text : List Char) : List (List Char) := numbers py (cleaned py text)

theorem found_append (a b : List Char) : found py (a ++ ' ' :: b) = found py a ++ found py b := by
  have hspace : py.space ' ' = true := (py.space_ascii ' ' (by decide)).trans (by decide)
  have hfound : ∀ text, found py text =
      ((numberRe py).finditer ((artifactId py).sub (fun _ => [' ']) ((isoDateRe py).sub (fun _ => [' ']) text))).map
        Prod.fst := by
    intro text
    rw [found, numbers, cleaned]
    exact congrArg _ (Regex.finditer_sub_gap artifactId_avoids artifactId_takes numberRe_avoids hspace _)
  rw [hfound, hfound, hfound, Regex.sub_append isoDateRe_avoids hspace, Regex.sub_append artifactId_avoids hspace,
    Regex.finditer_append numberRe_avoids hspace, map_append]

/-- Pieces with a space between them. -/
def joined (pieces : List (List Char)) : List Char := [' '].intercalate pieces

theorem found_joined (pieces : List (List Char)) : found py (joined pieces) = pieces.flatMap (found py) := by
  induction pieces with
  | nil => rfl
  | cons piece pieces ih =>
    cases pieces with
    | nil => rw [joined, intercalate_singleton, flatMap_cons, flatMap_nil, append_nil]
    | cons next pieces =>
      have hjoined : joined (piece :: next :: pieces) = piece ++ ' ' :: joined (next :: pieces) := rfl
      rw [hjoined, found_append, ih]
      exact flatMap_cons.symm

end Separators
end NumericAudit
end SelericSwarm
