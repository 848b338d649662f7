import Mathlib.Data.List.DropRight

/-! Base64 with the URL-safe alphabet: the encoder, and the lenient decoder that skips what it
does not know and stops at the padding. -/
namespace Base64
open List

def alphabet : List Char := "ABCDEFGHIJKLMNOPQRSTUVWXYZabcdefghijklmnopqrstuvwxyz0123456789-_".toList

def symbol (n : Nat) : Char := alphabet.getD n 'A'

/-- The decoder takes both alphabets. -/
def value? (c : Char) : Option Nat :=
  if 'A' ≤ c ∧ c ≤ 'Z' then some (c.toNat - 65)
  else if 'a' ≤ c ∧ c ≤ 'z' then some (c.toNat - 71)
  else if '0' ≤ c ∧ c ≤ '9' then some (c.toNat + 4)
  else if c = '-' ∨ c = '+' then some 62
  else if c = '_' ∨ c = '/' then some 63
  else none

/-- What is encoded, without its padding. -/
def data : List UInt8 → List Char
  | [] => []
  | [a] => [symbol (a.toNat / 4), symbol (a.toNat % 4 * 16)]
  | [a, b] => [symbol (a.toNat / 4), symbol (a.toNat % 4 * 16 + b.toNat / 16), symbol (b.toNat % 16 * 4)]
  | a :: b :: c :: bytes => symbol (a.toNat / 4) :: symbol (a.toNat % 4 * 16 + b.toNat / 16) ::
      symbol (b.toNat % 16 * 4 + c.toNat / 64) :: symbol (c.toNat % 64) :: data bytes

/-- The padding makes the length a multiple of four. -/
def padding (symbols : Nat) : List Char := List.replicate ((4 - symbols % 4) % 4) '='

def encode (bytes : List UInt8) : List Char := data bytes ++ padding (data bytes).length

/-- `position` counts the symbols of the group so far, `rest` are the bits of the last one that no byte has taken. -/
def decodeFrom (position rest pads : Nat) : List Char → Option (List UInt8)
  | [] => if position = 0 then some [] else none
  | c :: text =>
    if c = '=' then
      if 2 ≤ position then if 4 ≤ position + (pads + 1) then some [] else decodeFrom position rest (pads + 1) text
      else decodeFrom position rest pads text
    else match value? c with
      | none => decodeFrom position rest pads text
      | some v => match position with
        | 0 => decodeFrom 1 v 0 text
        | 1 => (decodeFrom 2 (v % 16) 0 text).map (UInt8.ofNat (rest * 4 + v / 16) :: ·)
        | 2 => (decodeFrom 3 (v % 4) 0 text).map (UInt8.ofNat (rest * 16 + v / 4) :: ·)
        | _ => (decodeFrom 0 0 0 text).map (UInt8.ofNat (rest * 64 + v) :: ·)

def decode (text : List Char) : Option (List UInt8) := decodeFrom 0 0 0 text

theorem symbol_spec : ∀ n < 64, value? (symbol n) = some n ∧ symbol n ≠ '=' := by decide +kernel

/-! One symbol is read, by its place in the group. -/

section Symbols
variable {n : Nat} (h : n < 64) (rest pads : Nat) (text : List Char)
include h

theorem decodeFrom_zero : decodeFrom 0 rest pads (symbol n :: text) = decodeFrom 1 n 0 text := by
  obtain ⟨hvalue, hpad⟩ := symbol_spec n h
  rw [decodeFrom, if_neg hpad, hvalue]
  rfl

theorem decodeFrom_one : decodeFrom 1 rest pads (symbol n :: text) =
    (decodeFrom 2 (n % 16) 0 text).map (UInt8.ofNat (rest * 4 + n / 16) :: ·) := by
  obtain ⟨hvalue, hpad⟩ := symbol_spec n h
  rw [decodeFrom, if_neg hpad, hvalue]
  rfl

theorem decodeFrom_two : decodeFrom 2 rest pads (symbol n :: text) =
    (decodeFrom 3 (n % 4) 0 text).map (UInt8.ofNat (rest * 16 + n / 4) :: ·) := by
  obtain ⟨hvalue, hpad⟩ := symbol_spec n h
  rw [decodeFrom, if_neg hpad, hvalue]
  rfl

theorem decodeFrom_three : decodeFrom 3 rest pads (symbol n :: text) =
    (decodeFrom 0 0 0 text).map (UInt8.ofNat (rest * 64 + n) :: ·) := by
  obtain ⟨hvalue, hpad⟩ := symbol_spec n h
  rw [decodeFrom, if_neg hpad, hvalue]
  rfl

end Symbols

theorem ofNat_eq {a : UInt8} {n : Nat} (h : n = a.toNat) : UInt8.ofNat n = a := by
  subst h
  exact UInt8.ofNat_toNat

theorem decode_one (a : UInt8) : decode (data [a] ++ ['=', '=']) = some [a] := by
  have ha := a.toNat_lt
  have hfirst : a.toNat / 4 * 4 + a.toNat % 4 * 16 / 16 = a.toNat := by omega
  rw [decode, data, cons_append, decodeFrom_zero (by omega), cons_append, decodeFrom_one (by omega),
    ofNat_eq hfirst]
  rfl

theorem decode_two (a b : UInt8) : decode (data [a, b] ++ ['=']) = some [a, b] := by
  have ha := a.toNat_lt
  have hb := b.toNat_lt
  have hfirst : a.toNat / 4 * 4 + (a.toNat % 4 * 16 + b.toNat / 16) / 16 = a.toNat := by omega
  have hsecond : (a.toNat % 4 * 16 + b.toNat / 16) % 16 * 16 + b.toNat % 16 * 4 / 4 = b.toNat := by omega
  rw [decode, data, cons_append, decodeFrom_zero (by omega), cons_append, decodeFrom_one (by omega),
    cons_append, decodeFrom_two (by omega), ofNat_eq hfirst, ofNat_eq hsecond]
  rfl

theorem decode_three (a b c : UInt8) (bytes : List UInt8) (text : List Char) :
    decode (data (a :: b :: c :: bytes) ++ text) = (decode (data bytes ++ text)).map ([a, b, c] ++ ·) := by
  have ha := a.toNat_lt
  have hb := b.toNat_lt
  have hc := c.toNat_lt
  have hfirst : a.toNat / 4 * 4 + (a.toNat % 4 * 16 + b.toNat / 16) / 16 = a.toNat := by omega
  have hsecond : (a.toNat % 4 * 16 + b.toNat / 16) % 16 * 16 + (b.toNat % 16 * 4 + c.toNat / 64) / 4 = b.toNat := by
    omega
  have hthird : (b.toNat % 16 * 4 + c.toNat / 64) % 4 * 64 + c.toNat % 64 = c.toNat := by omega
  rw [decode, data, cons_append, decodeFrom_zero (by omega), cons_append, decodeFrom_one (by omega),
    cons_append, decodeFrom_two (by omega), cons_append, decodeFrom_three (by omega), ofNat_eq hfirst,
    ofNat_eq hsecond, ofNat_eq hthird, Option.map_map, Option.map_map]
  rfl

theorem decode_encode (bytes : List UInt8) : decode (encode bytes) = some bytes := by
  rw [encode]
  induction bytes using data.induct with
  | case1 => rfl
  | case2 a => exact decode_one a
  | case3 a b => exact decode_two a b
  | case4 a b c bytes ih =>
    have hpadding : padding (data (a :: b :: c :: bytes)).length = padding (data bytes).length := by
      simp only [padding, data, length_cons]
      congr 1
      omega
    rw [decode_three, hpadding, ih]
    rfl

theorem data_alphabet (bytes : List UInt8) : ∀ c ∈ data bytes, c ∈ alphabet := by
  have hsymbol (n : Nat) : symbol n ∈ alphabet := by
    rw [symbol, getD_eq_getElem?_getD]
    cases h : alphabet[n]? with
    | none => decide
    | some c => exact mem_of_getElem? h
  induction bytes using data.induct with
  | case1 => exact nofun
  | case2 a => simp [data, hsymbol]
  | case3 a b => simp [data, hsymbol]
  | case4 a b c bytes ih => simpa [data, hsymbol] using ih

theorem alphabet_plain : ∀ c ∈ alphabet, c ≠ '=' ∧ c.toNat < 128 := by
  have hall : (alphabet.all fun c => c ≠ '=' && c.toNat < 128) = true := by decide
  simpa using hall

/-- `rstrip("=")` takes away the padding. -/
theorem rstrip_encode (bytes : List UInt8) : (encode bytes).rdropWhile (· = '=') = data bytes := by
  rw [encode, padding]
  generalize (4 - (data bytes).length % 4) % 4 = n
  induction n with
  | zero =>
    rw [replicate_zero, append_nil, rdropWhile_eq_self_iff]
    intro hne h
    exact (alphabet_plain _ (data_alphabet bytes _ (getLast_mem hne))).1 (of_decide_eq_true h)
  | succ n ih =>
    rw [replicate_succ', ← append_assoc, rdropWhile_concat_pos _ _ _ rfl]
    exact ih

/-- Only letters, digits and four other signs. -/
theorem encode_plain (bytes : List UInt8) : ∀ c ∈ encode bytes, c.toNat < 128 := by
  intro c hc
  obtain hdata | hpad := mem_append.mp hc
  · exact (alphabet_plain c (data_alphabet bytes c hdata)).2
  · rw [eq_of_mem_replicate hpad]
    decide

theorem data_eq_nil {bytes : List UInt8} (h : data bytes = []) : bytes = [] := by
  cases bytes using data.induct with
  | case1 => rfl
  | _ => cases h

end Base64
