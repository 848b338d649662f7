import SelericSwarm.Submission

/-! What is read aloud of an answer: its text without the markdown, and not too much of it.
Texts are lists of characters here. -/
namespace SelericSwarm.Voice

/-- `c.isspace()`, which is also what `\s` matches. -/
def isSpace (c : Char) : Bool := c.toNat ∈ stripped

/-! `re.sub`. A pattern looks at a text from its first character on, and gives the replacement
and the length of its match, which is not empty. -/

abbrev Pattern := List Char → Option (List Char × Nat)

/-- `re.sub`, where `skip` characters of a match are still to pass. -/
def subFrom (pattern : Pattern) : Nat → List Char → List Char
  | _, [] => []
  | skip + 1, _ :: text => subFrom pattern skip text
  | 0, c :: text => match pattern (c :: text) with
    | some (replacement, length) => replacement ++ subFrom pattern (length - 1) text
    | none => c :: subFrom pattern 0 text

def sub (pattern : Pattern) (text : List Char) : List Char := subFrom pattern 0 text

/-! The patterns of `format_spoken_summary`. -/

/-- How far it is to the end of the next fence. -/
def fenceEnd : List Char → Option Nat
  | [] => none
  | '`' :: '`' :: '`' :: _ => some 3
  | _ :: text => (fenceEnd text).map (· + 1)

def codeBlock (text : List Char) : Option (List Char × Nat) :=
  if text.take 3 = ['`', '`', '`'] then (fenceEnd (text.drop 3)).map fun length => ([], 3 + length) else none

/-- `#+\s*`. -/
def header (text : List Char) : Option (List Char × Nat) :=
  let marks := text.takeWhile (· = '#')
  if marks = [] then none
  else some ([], marks.length + ((text.drop marks.length).takeWhile isSpace).length)

/-- `[*_]{1,3}`. -/
def emphasis (text : List Char) : Option (List Char × Nat) :=
  let marks := (text.takeWhile fun c => c = '*' || c = '_').take 3
  if marks = [] then none else some ([], marks.length)

/-- `\[([^\]]+)\]\([^)]+\)`, of which the name stays. -/
def link (text : List Char) : Option (List Char × Nat) :=
  let name := (text.drop 1).takeWhile (· ≠ ']')
  let behind := text.drop (1 + name.length)
  let target := (behind.drop 2).takeWhile (· ≠ ')')
  if text.head? = some '[' ∧ name ≠ [] ∧ behind.take 2 = [']', '('] ∧ target ≠ [] ∧
      (behind.drop (2 + target.length)).head? = some ')' then
    some (name, 1 + name.length + 2 + target.length + 1)
  else none

/-- `\|[-:\s|]+\|`: the row reaches to the last bar of what it may consist of. -/
def tableRow (text : List Char) : Option (List Char × Nat) :=
  let row := (text.drop 1).takeWhile fun c => c = '-' || c = ':' || isSpace c || c = '|'
  let inner := (row.reverse.dropWhile (· ≠ '|')).length
  if text.head? = some '|' ∧ 2 ≤ inner then some ([], 1 + inner) else none

def bar (text : List Char) : Option (List Char × Nat) :=
  if text.head? = some '|' then some ([' '], 1) else none

/-- `text.split()`, behind the word that has begun. -/
def wordsFrom (word : List Char) : List Char → List (List Char)
  | [] => if word = [] then [] else [word]
  | c :: text =>
    if isSpace c then (if word = [] then wordsFrom [] text else word :: wordsFrom [] text)
    else wordsFrom (word ++ [c]) text

/-- `" ".join(text.split())`. -/
def collapse (text : List Char) : List Char := [' '].intercalate (wordsFrom [] text)

/-- The text after all its substitutions. -/
def cleaned (text : List Char) : List Char :=
  collapse (sub bar (sub tableRow (sub link (sub emphasis (sub header (sub codeBlock text))))))

/-- `text.rsplit(".", 1)[0]`. -/
def upToLastStop (text : List Char) : List Char :=
  if '.' ∈ text then ((text.reverse.dropWhile (· ≠ '.')).drop 1).reverse else text

def nothingLeft : List Char := "Seleric completed the analysis. Please check your thread for details.".toList

def moreInThread : List Char := ". Full evidence breakdown is available in your thread.".toList

def formatSpokenSummary (text : List Char) (maxChars : Nat := 350) : List Char :=
  if cleaned text = [] then nothingLeft
  else if maxChars < (cleaned text).length then
    let front := (cleaned text).take maxChars
    (if upToLastStop front = [] then front else upToLastStop front) ++ moreInThread
  else cleaned text

example : formatSpokenSummary "### Quarterly Revenue\n\n**Revenue**: $4.2M (+12% YoY)".toList =
    "Quarterly Revenue Revenue: $4.2M (+12% YoY)".toList := by decide

end SelericSwarm.Voice
