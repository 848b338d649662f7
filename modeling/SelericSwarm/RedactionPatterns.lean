import SelericSwarm.Privacy
import SelericSwarm.Substitution

/-! The patterns of the redaction as regular expressions, and what the last of them matches. -/
open List

namespace SelericSwarm
open Backtracking

/-- What Python knows of Unicode: `\w`, `\d` and `\s`, and `lower` and `str` of the redaction. -/
structure PythonText (κ : Type) where
  word : Char → Bool
  digit : Char → Bool
  space : Char → Bool
  lower : String → String
  str : κ → String
  word_ascii : ∀ c : Char, c.toNat < 128 → word c = (c.isAlphanum || c = '_')
  word_dash : word '–' = false
  digit_ascii : ∀ c : Char, c.toNat < 128 → digit c = c.isDigit
  /-- What is lower case already stays as it is. -/
  lower_lower : ∀ s : String, (∀ c ∈ s.toList, c.isLower = true) → lower s = s

/-- Beyond ASCII, what a letter matches when case is ignored. -/
def otherCases : Char → List Char
  | 'i' => ['İ', 'ı']
  | 's' => ['ſ']
  | 'k' => ['\u212a']
  | _ => []

def anyCase (letter c : Char) : Bool := c.toLower = letter || c ∈ otherCases letter

def insensitive (text : String) : Regex := .literal (text.toList.map fun c => anyCase c.toLower)

/-- `[a-z0-9]` when case is ignored. -/
def alphanumeric (c : Char) : Bool := c.isAlphanum || c ∈ ['İ', 'ı', 'ſ', '\u212a']

namespace PythonText
variable {κ : Type} (py : PythonText κ)

def bearer : Regex :=
  .seq (.boundary py.word) (.seq (.group 1 (insensitive "bearer"))
    (.seq (.many 1 (.char py.space)) (.many 8 (.char fun c => alphanumeric c || c ∈ "._~+/=-".toList))))

def credential : Regex :=
  .seq (.boundary py.word) (.seq (.group 1 (.alt
      (.seq (insensitive "api") (.seq (.opt (.char (· ∈ "_ -".toList))) (insensitive "key")))
      (.alt (insensitive "password") (.alt (insensitive "secret") (insensitive "token")))))
    (.seq (.boundary py.word) (.seq (.group 2 (.seq (.many 0 (.char py.space))
        (.seq (.alt (insensitive "=") (.alt (insensitive ":") (insensitive "is"))) (.many 0 (.char py.space)))))
      (.seq (.notAhead (insensitive redacted))
        (.group 3 (.many 4 (.char fun c => !py.space c && c ∉ ",;".toList)))))))

def secretKey : Regex :=
  .seq (.boundary py.word) (.seq (.group 1 (.seq (insensitive "sk-")
    (.many 12 (.char fun c => alphanumeric c || c ∈ "_-".toList)))) (.boundary py.word))

def email : Regex :=
  let mailbox (c : Char) : Bool := py.word c || c ∈ ".+-".toList
  let domain (c : Char) : Bool := py.word c || c = '-'
  .seq (.notBehind mailbox) (.seq (.many 1 (.char mailbox)) (.seq (.char (· = '@'))
    (.seq (.many 1 (.char domain)) (.many 1 (.seq (.char (· = '.')) (.many 1 (.char domain)))))))

/-- `[\d .()-]`. -/
def dials (c : Char) : Bool := py.digit c || c ∈ " .()-".toList

def phone : Regex :=
  .seq (.notBehind py.word) (.seq (.seq (.opt (.char (· = '+'))) (.seq (.char py.digit)
    (.seq (.many 7 (.char py.dials)) (.char py.digit)))) (.notAhead (.char py.word)))

def pattern : TextPattern → Regex
  | .bearer => py.bearer
  | .credential => py.credential
  | .secretKey => py.secretKey
  | .email => py.email
  | .phone => py.phone

end PythonText

def replacement (p : TextPattern) (groups : List (Nat × List Char)) : List Char :=
  let group (name : Nat) : List Char := (groups.lookup name).getD []
  match p with
  | .bearer => group 1 ++ ' ' :: redacted.toList
  | .credential => group 1 ++ group 2 ++ redacted.toList
  | .secretKey => redacted.toList
  | .email => "[REDACTED_EMAIL]".toList
  | .phone => "[REDACTED_PHONE]".toList

namespace PythonText
variable {κ : Type} (py : PythonText κ)

def redaction : Redaction κ where
  lower := py.lower
  lower_empty := py.lower_lower "" (by simp)
  str := py.str
  sub p text := String.ofList ((py.pattern p).sub (replacement p) text.toList)

/-! Behind a text that stands between blanks. -/

theorem word_space : py.word ' ' = false := by
  rw [py.word_ascii ' ' (by decide)]
  decide

theorem word_bracket : py.word ']' = false := by
  rw [py.word_ascii ']' (by decide)]
  decide

theorem starts_pattern {p : TextPattern} (hp : p ≠ .phone) : (py.pattern p).Starts (· ≠ ' ') := by
  have hcase (letter : Char) (h : anyCase letter ' ' = false) (c : Char) (hc : anyCase letter c = true) :
      decide (c ≠ ' ') = true := by
    rw [decide_eq_true_eq]
    rintro rfl
    rw [h] at hc
    cases hc
  cases p with
  | phone => exact absurd rfl hp
  | bearer => exact .inr ⟨trivial, .inl (.inl (hcase 'b' (by decide)))⟩
  | credential =>
    refine .inr ⟨trivial, .inl ⟨.inl (.inl (hcase 'a' (by decide))), .inl (hcase 'p' (by decide)), ?_, ?_⟩⟩
    · exact .inl (hcase 's' (by decide))
    · exact .inl (hcase 't' (by decide))
  | secretKey => exact .inr ⟨trivial, .inl (.inl (.inl (hcase 's' (by decide))))⟩
  | email =>
    have hmailbox : (py.word ' ' || decide (' ' ∈ ".+-".toList)) = false := by
      rw [py.word_space]
      decide
    have hfirst (c : Char) (hc : (py.word c || decide (c ∈ ".+-".toList)) = true) : decide (c ≠ ' ') = true := by
      rw [decide_eq_true_eq]
      rintro rfl
      rw [hmailbox] at hc
      cases hc
    exact .inr ⟨trivial, .inl ⟨Nat.one_pos, hfirst⟩⟩

theorem getLast?_replacement (p : TextPattern) (groups : List (Nat × List Char)) :
    (replacement p groups).getLast? = some ']' := by
  have hmask : redacted.toList.getLast? = some ']' := by decide
  have hbehind (text : List Char) : (text ++ redacted.toList).getLast? = some ']' := by
    rw [List.getLast?_append, hmask, Option.some_or]
  cases p with
  | bearer =>
    change ((groups.lookup 1).getD [] ++ ' ' :: redacted.toList).getLast? = some ']'
    rw [append_cons]
    exact hbehind _
  | credential => exact hbehind _
  | secretKey => exact hmask
  | email =>
    change "[REDACTED_EMAIL]".toList.getLast? = some ']'
    decide
  | phone =>
    change "[REDACTED_PHONE]".toList.getLast? = some ']'
    decide

/-- What ends with no word character still does. -/
def Closed (u : List Char) : Prop := ∃ c, u.getLast? = some c ∧ py.word c = false

theorem closed_of_leaves {p : TextPattern} {t u v u' v' : List Char}
    (h : (py.pattern p).Leaves (replacement p) t u v u' v') (hu : py.Closed u) : py.Closed u' := by
  obtain ⟨P, Q, -, rfl, -, rfl, -⟩ := h
  obtain ⟨c, hlast, hc⟩ := hu
  obtain rfl | ⟨P, piece, rfl⟩ := eq_nil_or_concat P
  · cases hlast
  · cases piece with
    | plain d =>
      obtain rfl : d = c := by simpa [Piece.text] using hlast
      exact ⟨d, by simp [Piece.rendered], hc⟩
    | found m groups =>
      exact ⟨']', by simp [Piece.rendered, List.getLast?_append, getLast?_replacement], py.word_bracket⟩

theorem head?_of_leaves {p : TextPattern} (hp : p ≠ .phone) {t u v u' v' : List Char}
    (h : (py.pattern p).Leaves (replacement p) t u v u' v') (hv : v.head? = some ' ') : v'.head? = some ' ' := by
  obtain ⟨P, Q, hscan, -, rfl, -, rfl⟩ := h
  cases Q with
  | nil => cases hv
  | cons piece Q =>
    cases piece with
    | plain c => exact hv
    | found m groups =>
      obtain ⟨-, found, hhead, -⟩ := Regex.scan_found hscan
      obtain ⟨c, rest, hrest, hc⟩ := Regex.run_starts _ (py.starts_pattern hp) _ found (mem_of_head? hhead)
      rw [textOf_cons, show (Piece.found m groups).text ++ textOf Q = c :: rest from hrest] at hv
      obtain rfl := Option.some.inj hv
      simp at hc

/-! What the last pattern matches: a stretch that begins and ends with a digit, and perhaps a plus before it. -/

structure Dialled (stretch : List Char) : Prop where
  length : 9 ≤ stretch.length
  all : ∀ c ∈ stretch, py.dials c = true
  first : stretch.head?.any py.digit = true
  last : stretch.getLast?.any py.digit = true

/-- A stretch with no word character beside it. -/
def PhoneAt (ahead m rest : List Char) : Prop :=
  ahead.getLast?.any py.word = false ∧ rest.head?.any py.word = false ∧
    ∃ stretch, (m = stretch ∨ m = '+' :: stretch) ∧ py.Dialled stretch

theorem dials_of_digit {c : Char} (h : py.digit c = true) : py.dials c = true := by
  rw [dials, h, Bool.true_or]

/-- The pattern of the stretch itself. -/
def dialling : Regex := .seq (.char py.digit) (.seq (.many 7 (.char py.dials)) (.char py.digit))

theorem mem_run_dialling {s t : Spot} : t ∈ py.dialling.run s ↔
    ∃ stretch rest, s.rest = stretch ++ rest ∧ py.Dialled stretch ∧ t = s.after stretch rest := by
  constructor
  · intro ht
    obtain ⟨s₁, hs₁, ht⟩ := Regex.mem_run_seq.mp ht
    obtain ⟨a, rest₁, hrest, ha, rfl⟩ := Regex.mem_run_char.mp hs₁
    obtain ⟨s₂, hs₂, ht⟩ := Regex.mem_run_seq.mp ht
    obtain ⟨taken, rest₂, hrest₁, hall, hleast, rfl⟩ := Regex.mem_run_many_char.mp hs₂
    obtain ⟨z, rest₃, hrest₂, hz, rfl⟩ := Regex.mem_run_char.mp ht
    refine ⟨a :: (taken ++ [z]), rest₃, ?_, ⟨?_, ?_, ?_, ?_⟩, ?_⟩
    · rw [hrest, show rest₁ = taken ++ rest₂ from hrest₁, show rest₂ = z :: rest₃ from hrest₂]
      simp
    · simp only [length_cons, length_append, length_nil]
      omega
    · intro c hc
      obtain rfl | hc := mem_cons.mp hc
      · exact py.dials_of_digit ha
      · obtain hc | hc := mem_append.mp hc
        · exact hall c hc
        · rw [mem_singleton.mp hc]
          exact py.dials_of_digit hz
    · simpa using ha
    · simpa [List.getLast?_cons] using hz
    · simp
  · rintro ⟨stretch, rest, hrest, h, rfl⟩
    obtain ⟨a, tail, rfl⟩ : ∃ a tail, stretch = a :: tail :=
      exists_cons_of_length_pos (Nat.lt_of_lt_of_le (by decide) h.length)
    obtain ⟨mid, z, rfl⟩ : ∃ mid z, tail = mid ++ [z] := by
      obtain rfl | ⟨mid, z, htail⟩ := eq_nil_or_concat tail
      · exact absurd h.length (by simp)
      · exact ⟨mid, z, htail.trans concat_eq_append⟩
    have hlength := h.length
    simp only [length_cons, length_append, length_nil] at hlength
    refine Regex.mem_run_seq.mpr ⟨s.after [a] (mid ++ [z] ++ rest), ?_, Regex.mem_run_seq.mpr
      ⟨s.after (a :: mid) (z :: rest), ?_, ?_⟩⟩
    · exact Regex.mem_run_char.mpr ⟨a, _, by rw [hrest]; simp, by simpa using h.first, rfl⟩
    · refine Regex.mem_run_many_char.mpr ⟨mid, z :: rest, ?_, fun c hc => h.all c (by simp [hc]), by omega, ?_⟩
      · simp [Spot.after]
      · simp
    · refine Regex.mem_run_char.mpr ⟨z, rest, rfl, ?_, ?_⟩
      · simpa [List.getLast?_cons] using h.last
      · simp

theorem mem_run_phone {s t : Spot} : t ∈ py.phone.run s ↔
    s.before.head?.any py.word = false ∧ t.rest.head?.any py.word = false ∧
      ∃ m, s.rest = m ++ t.rest ∧ (∃ stretch, (m = stretch ∨ m = '+' :: stretch) ∧ py.Dialled stretch) ∧
        t = s.after m t.rest := by
  constructor
  · intro ht
    obtain ⟨s₁, hs₁, htail⟩ := Regex.mem_run_seq.mp ht
    obtain ⟨hbehind, rfl⟩ := Regex.mem_run_notBehind.mp hs₁
    obtain ⟨s₂, hs₂, hlast⟩ := Regex.mem_run_seq.mp htail
    obtain ⟨hahead, rfl⟩ := Regex.mem_run_notAhead.mp hlast
    obtain ⟨s₃, hs₃, hs₂⟩ := Regex.mem_run_seq.mp hs₂
    obtain ⟨stretch, rest, hrest, hstretch, rfl⟩ := py.mem_run_dialling.mp hs₂
    obtain hplus | rfl := Regex.mem_run_opt.mp hs₃
    · obtain ⟨c, rest', hsign, hc, rfl⟩ := Regex.mem_run_char.mp hplus
      obtain rfl : c = '+' := by simpa using hc
      refine ⟨hbehind, hahead, '+' :: stretch, ?_, ⟨stretch, .inr rfl, hstretch⟩, ?_⟩
      · rw [hsign, show rest' = stretch ++ rest from hrest]
        rfl
      · rw [Spot.after_after]
        rfl
    · exact ⟨hbehind, hahead, stretch, hrest, ⟨stretch, .inl rfl, hstretch⟩, rfl⟩
  · rintro ⟨hbehind, hahead, m, hrest, ⟨stretch, hm, hstretch⟩, ht⟩
    refine Regex.mem_run_seq.mpr ⟨s, Regex.mem_run_notBehind.mpr ⟨hbehind, rfl⟩, Regex.mem_run_seq.mpr
      ⟨t, Regex.mem_run_seq.mpr ?_, Regex.mem_run_notAhead.mpr ⟨hahead, rfl⟩⟩⟩
    obtain rfl | rfl := hm
    · exact ⟨s, Regex.mem_run_opt.mpr (.inr rfl), py.mem_run_dialling.mpr ⟨m, t.rest, hrest, hstretch, ht⟩⟩
    · refine ⟨s.after ['+'] (stretch ++ t.rest), Regex.mem_run_opt.mpr (.inl ?_), ?_⟩
      · exact Regex.mem_run_char.mpr ⟨'+', _, hrest, by decide, rfl⟩
      · refine py.mem_run_dialling.mpr ⟨stretch, t.rest, rfl, hstretch, ?_⟩
        rw [Spot.after_after]
        exact ht

theorem phone_matches {ahead m rest : List Char} :
    py.phone.Matches ahead.reverse m rest ↔ py.PhoneAt ahead m rest := by
  constructor
  · rintro ⟨t, ht, rfl⟩
    obtain ⟨hbehind, hahead, m', hrest, hm, -⟩ := py.mem_run_phone.mp ht
    obtain rfl : m = m' := append_cancel_right hrest
    exact ⟨by simpa using hbehind, hahead, hm⟩
  · rintro ⟨hbehind, hahead, hm⟩
    refine ⟨Spot.after { before := ahead.reverse, rest := m ++ rest } m rest, ?_, rfl⟩
    exact py.mem_run_phone.mpr ⟨by simpa using hbehind, hahead, m, rfl, hm, rfl⟩

theorem digit_plus : py.digit '+' = false := by
  rw [py.digit_ascii '+' (by decide)]
  decide

theorem dials_plus : py.dials '+' = false := by
  rw [dials, py.digit_plus]
  decide

theorem length_run_char_le (p : Char → Bool) (s : Spot) : ((Regex.char p).run s).length ≤ 1 := by
  rw [Regex.run_char]
  split
  · exact Nat.zero_le 1
  · split
    · exact Nat.le_refl 1
    · exact Nat.zero_le 1

theorem shrinking_dialling (s : Spot) : Regex.Shrinking (py.dialling.run s) := by
  have hlast (t : Spot) : Regex.Shrinking (((Regex.many 7 (.char py.dials)).run t).flatMap (Regex.char py.digit).run) := by
    refine (Regex.shrinking_run_many_char py.dials 7 t).flatMap 1 ?_ (length_run_char_le py.digit)
    intro u v hv
    obtain ⟨c, rest, hrest, -, rfl⟩ := Regex.mem_run_char.mp hv
    rw [hrest]
    rfl
  rw [dialling, Regex.run_seq, Regex.run_char]
  split
  · exact List.Pairwise.nil
  · split
    · rw [flatMap_singleton]
      exact hlast _
    · exact List.Pairwise.nil

theorem shrinking_phone (s : Spot) : Regex.Shrinking (py.phone.run s) := by
  have hsigned (s : Spot) : Regex.Shrinking ((Regex.seq (.opt (.char (· = '+'))) py.dialling).run s) := by
    rw [Regex.run_seq, Regex.opt, Regex.run_alt, Regex.run_empty, Regex.run_char, flatMap_append,
      flatMap_singleton]
    split
    · exact py.shrinking_dialling s
    · next c rest hrest =>
      split
      · next hc =>
        -- no digit is a plus
        have hnone : py.dialling.run s = [] := by
          refine eq_nil_iff_forall_not_mem.mpr fun t ht => ?_
          obtain ⟨stretch, rest', hsplit, hstretch, -⟩ := py.mem_run_dialling.mp ht
          have hfirst := hstretch.first
          obtain rfl : c = '+' := by simpa using hc
          cases stretch with
          | nil => cases hfirst
          | cons a tail =>
            obtain rfl : '+' = a := (List.cons.inj (hrest.symm.trans hsplit)).1
            simp [py.digit_plus] at hfirst
        rw [hnone, append_nil, flatMap_singleton]
        exact py.shrinking_dialling _
      · exact py.shrinking_dialling s
  have hclosed (s : Spot) : Regex.Shrinking ((Regex.seq (.seq (.opt (.char (· = '+'))) py.dialling)
      (.notAhead (.char py.word))).run s) := by
    refine (hsigned s).flatMap 0 ?_ ?_
    · intro t u hu
      obtain ⟨-, rfl⟩ := Regex.mem_run_notAhead.mp hu
      rfl
    · intro t
      rw [Regex.run_notAhead]
      split
      · exact Nat.le_refl 1
      · exact Nat.zero_le 1
  change Regex.Shrinking (((Regex.notBehind py.word).run s).flatMap _)
  rw [Regex.run_notBehind]
  split
  · exact List.Pairwise.nil
  · rw [flatMap_singleton]
    exact hclosed s

theorem greedy_phone : py.phone.Greedy := fun s _ _ hhead hu => (py.shrinking_phone s).head hhead hu

/-- A stretch that begins within another one goes on with it. -/
theorem Dialled.append {py : PythonText κ} {first common second : List Char} (hfirst : first ≠ [])
    (h : py.Dialled (first ++ common)) (h' : py.Dialled (common ++ second)) : py.Dialled (first ++ (common ++ second)) := by
  refine ⟨?_, ?_, ?_, ?_⟩
  · rw [length_append]
    exact Nat.le_trans h'.length (Nat.le_add_left _ _)
  · intro c hc
    obtain hc | hc := mem_append.mp hc
    · exact h.all c (mem_append_left common hc)
    · exact h'.all c hc
  · obtain ⟨a, first, rfl⟩ := exists_cons_of_ne_nil hfirst
    exact h.first
  · have hne : common ++ second ≠ [] := by
      intro hnil
      have hlength := h'.length
      rw [hnil] at hlength
      cases hlength
    rw [List.getLast?_append_of_ne_nil _ hne]
    exact h'.last

/-- A stretch that begins within another one has no plus before it. -/
theorem Dialled.unsigned {py : PythonText κ} {front common second stretch : List Char} (hcommon : common ≠ [])
    (h : py.Dialled (front ++ common)) (hm : common ++ second = stretch ∨ common ++ second = '+' :: stretch) :
    common ++ second = stretch := by
  obtain hm | hm := hm
  · exact hm
  · obtain ⟨c, common, rfl⟩ := exists_cons_of_ne_nil hcommon
    obtain ⟨rfl, -⟩ := List.cons.inj hm
    have hdials := h.all '+' (by simp)
    rw [py.dials_plus] at hdials
    cases hdials

theorem joined_phone : py.phone.Joined := by
  intro before first common second rest hcommon h h'
  obtain ⟨ahead, rfl⟩ : ∃ ahead : List Char, before = ahead.reverse := ⟨before.reverse, by simp⟩
  rw [← reverse_append] at h'
  obtain ⟨hbehind, -, stretch, hm, hstretch⟩ := py.phone_matches.mp h
  obtain ⟨hbehind', hahead, stretch', hm', hstretch'⟩ := py.phone_matches.mp h'
  refine py.phone_matches.mpr ⟨hbehind, hahead, ?_⟩
  obtain rfl | hne := eq_or_ne first []
  · exact ⟨stretch', by simpa using hm', hstretch'⟩
  · rw [append_assoc]
    obtain rfl | hm := hm
    · obtain rfl := hstretch.unsigned hcommon hm'
      exact ⟨_, .inl rfl, hstretch.append hne hstretch'⟩
    · obtain ⟨sign, front, rfl⟩ := exists_cons_of_ne_nil hne
      obtain ⟨rfl, rfl⟩ : sign = '+' ∧ front ++ common = stretch := List.cons.inj hm
      obtain rfl := hstretch.unsigned hcommon hm'
      refine ⟨front ++ (common ++ second), .inr rfl, ?_⟩
      obtain rfl | hfront := eq_or_ne front []
      · exact hstretch'
      · exact hstretch.append hfront hstretch'

theorem PhoneAt.ne_nil {py : PythonText κ} {ahead m rest : List Char} (h : py.PhoneAt ahead m rest) : m ≠ [] := by
  obtain ⟨-, -, stretch, hm, hstretch⟩ := h
  have hlength := hstretch.length
  rintro rfl
  obtain rfl | hm := hm
  · cases hlength
  · cases hm

/-- The last pattern leaves a part alone unless a stretch shares a character with it. -/
theorem phone_leaves_iff (t u v : List Char) :
    (∃ u' v', py.phone.Leaves (replacement .phone) t u v u' v') ↔ ∀ ahead m rest, u ++ t ++ v = ahead ++ m ++ rest →
      py.PhoneAt ahead m rest → ¬ Overlap u.length t.length ahead.length m.length := by
  rw [Regex.leaves_iff py.greedy_phone py.joined_phone]
  constructor
  · intro h ahead m rest hsplit hphone
    exact h ahead m rest hsplit hphone.ne_nil (py.phone_matches.mpr hphone)
  · intro h ahead m rest hsplit _ hmatch
    exact h ahead m rest hsplit (py.phone_matches.mp hmatch)

end PythonText
end SelericSwarm
