import Mathlib
import SelericSwarm.IsoDates
import SelericSwarm.RedactionPatterns

/-! What the redaction of an answer leaves of its figures, and of a text that is delivered in deltas. -/
open List

namespace SelericSwarm
open Backtracking Keyed

/-! The figures that are no private data. -/

def rangeSeparators : List String := ["..", "/", "–", " – ", " - ", " to "]

def IsDate (t : List Char) : Prop := ∃ d : Date, t = d.isoformat.toList

def IsRange (t : List Char) : Prop :=
  ∃ d e : Date, ∃ separator ∈ rangeSeparators, t = d.isoformat.toList ++ (separator.toList ++ e.isoformat.toList)

/-- Digits with a decimal point, or in groups between commas and perhaps with a point. -/
def numeral : Regex :=
  let digit : Regex := .char Char.isDigit
  let point : Regex := .seq (.char (· = '.')) (.many 1 digit)
  .alt (.seq (.many 1 digit) point)
    (.seq digit (.seq (.opt digit) (.seq (.opt digit)
      (.seq (.many 1 (.seq (.char (· = ',')) (.seq digit (.seq digit (.opt digit))))) (.opt point)))))

def IsNumeral (t : List Char) : Prop := numeral.fullmatch t = true

instance (t : List Char) : Decidable (IsNumeral t) := inferInstanceAs (Decidable (_ = true))

def IsFigure (t : List Char) : Prop := IsDate t ∨ IsRange t ∨ IsNumeral t

example : IsNumeral "12,34,567.50".toList := by decide

namespace PythonText
variable {κ α : Type} (py : PythonText κ)

/-- The patterns that stand before that of phone numbers. -/
def credentials : List TextPattern := [.bearer, .credential, .secretKey, .email]

/-- No match of these patterns, one after the other, takes a character of the part in the middle. -/
def Spared : List TextPattern → List Char → List Char → List Char → List Char → List Char → Prop
  | [], _, u, v, u', v' => u' = u ∧ v' = v
  | p :: ps, t, u, v, u', v' =>
    ∃ u₁ v₁, (py.pattern p).Leaves (replacement p) t u v u₁ v₁ ∧ Spared ps t u₁ v₁ u' v'

/-- The part in the middle lies in a match of one of these patterns. -/
def Inside : List TextPattern → List Char → List Char → List Char → Prop
  | [], _, _, _ => False
  | p :: ps, t, u, v =>
    (∃ P m groups Q, (py.pattern p).scan (u ++ t ++ v) = P ++ .found m groups :: Q ∧
      (textOf P).length ≤ u.length ∧ u.length + t.length ≤ (textOf P).length + m.length) ∨
    ∃ u₁ v₁, (py.pattern p).Leaves (replacement p) t u v u₁ v₁ ∧ Inside ps t u₁ v₁

/-- A figure between blanks in a text, not within a match of a credential or an e-mail address. -/
structure Standing (text u t v : List Char) : Prop where
  split : text = u ++ t ++ v
  figure : IsFigure t
  before : u.getLast? = some ' '
  behind : v.head? = some ' '
  outside : ¬ py.Inside credentials t u v

/-- Every figure that stands so is delivered unchanged. -/
def Kept (text delivered : String) : Prop :=
  ∀ u t v, py.Standing text.toList u t v →
    ∃ u' v', py.Spared textPatterns t u v u' v' ∧ delivered.toList = u' ++ t ++ v'

/-- Only numerals stand so; no match of a credential or an e-mail address takes a part of one,
and no stretch that can be a phone number shares a character with it. -/
def Harmless (text : String) : Prop :=
  ∀ u t v, py.Standing text.toList u t v → IsNumeral t ∧ ∃ u' v', py.Spared credentials t u v u' v' ∧
    ∀ ahead m rest, u' ++ t ++ v' = ahead ++ m ++ rest → py.PhoneAt ahead m rest →
      ¬ Overlap u'.length t.length ahead.length m.length

/-- One pattern after the other has the same matches in the parts as in the whole. -/
def Uncut : List TextPattern → List (List Char) → Prop
  | [], _ => True
  | p :: ps, parts =>
    (py.pattern p).scan parts.flatten = parts.flatMap (py.pattern p).scan ∧
      Uncut ps (parts.map ((py.pattern p).sub (replacement p)))

/-! One text. -/

theorem spared_append (ps qs : List TextPattern) : ∀ t u v u' v' : List Char,
    py.Spared (ps ++ qs) t u v u' v' ↔ ∃ u₁ v₁, py.Spared ps t u v u₁ v₁ ∧ py.Spared qs t u₁ v₁ u' v' := by
  induction ps with
  | nil =>
    intro t u v u' v'
    constructor
    · exact fun h => ⟨u, v, ⟨rfl, rfl⟩, h⟩
    · rintro ⟨u₁, v₁, ⟨rfl, rfl⟩, h⟩
      exact h
  | cons p ps ih =>
    intro t u v u' v'
    constructor
    · rintro ⟨u₁, v₁, hleaves, h⟩
      obtain ⟨u₂, v₂, h, h'⟩ := (ih t u₁ v₁ u' v').mp h
      exact ⟨u₂, v₂, ⟨u₁, v₁, hleaves, h⟩, h'⟩
    · rintro ⟨u₂, v₂, ⟨u₁, v₁, hleaves, h⟩, h'⟩
      exact ⟨u₁, v₁, hleaves, (ih t u₁ v₁ u' v').mpr ⟨u₂, v₂, h, h'⟩⟩

theorem toList_of_spared (ps : List TextPattern) : ∀ (text : String) (t u v u' v' : List Char),
    text.toList = u ++ t ++ v → py.Spared ps t u v u' v' →
      (ps.foldl (fun text p => py.redaction.sub p text) text).toList = u' ++ t ++ v' := by
  induction ps with
  | nil =>
    rintro text t u v u' v' htext ⟨rfl, rfl⟩
    exact htext
  | cons p ps ih =>
    rintro text t u v u' v' htext ⟨u₁, v₁, hleaves, h⟩
    refine ih _ t u₁ v₁ u' v' ?_ h
    rw [redaction, String.toList_ofList, htext, hleaves.sub]

theorem closed_of_spared (ps : List TextPattern) : ∀ t u v u' v' : List Char,
    py.Spared ps t u v u' v' → py.Closed u → py.Closed u' := by
  induction ps with
  | nil =>
    rintro t u v u' v' ⟨rfl, rfl⟩ hu
    exact hu
  | cons p ps ih =>
    rintro t u v u' v' ⟨u₁, v₁, hleaves, h⟩ hu
    exact ih t u₁ v₁ u' v' h (py.closed_of_leaves hleaves hu)

theorem head?_of_spared (ps : List TextPattern) (hps : TextPattern.phone ∉ ps) : ∀ t u v u' v' : List Char,
    py.Spared ps t u v u' v' → v.head? = some ' ' → v'.head? = some ' ' := by
  induction ps with
  | nil =>
    rintro t u v u' v' ⟨rfl, rfl⟩ hv
    exact hv
  | cons p ps ih =>
    obtain ⟨hp, hps⟩ : TextPattern.phone ≠ p ∧ TextPattern.phone ∉ ps := by simpa using hps
    rintro t u v u' v' ⟨u₁, v₁, hleaves, h⟩ hv
    exact ih hps t u₁ v₁ u' v' h (py.head?_of_leaves (Ne.symm hp) hleaves hv)

/-! A date is itself a stretch that can be a phone number. -/

theorem digit_of_isDigit {c : Char} (h : c.isDigit = true) : py.digit c = true := by
  rw [py.digit_ascii c ?_]
  · exact h
  · have hrange : 48 ≤ c.toNat ∧ c.toNat ≤ 57 := by simpa [Char.isDigit, UInt32.le_iff_toNat_le] using h
    omega

theorem dialled_isoformat (d : Date) : py.Dialled d.isoformat.toList := by
  have hdash : py.dials '-' = true := by
    rw [dials, Bool.or_eq_true]
    exact .inr (by decide)
  have hparts : d.isoformat.toList = (Date.padded 4 d.year).toList ++ '-' :: (Date.padded 2 d.month).toList ++
      '-' :: (Date.padded 2 d.day).toList := by
    simp [Date.isoformat]
  have hyear := Date.length_padded 4 d.year
  have hmonth := Date.length_padded 2 d.month
  have hday := Date.length_padded 2 d.day
  rw [hparts]
  refine ⟨?_, ?_, ?_, ?_⟩
  · simp only [length_append, length_cons]
    omega
  · intro c hc
    have hdigits (n width : Nat) (h : c ∈ (Date.padded width n).toList) : py.dials c = true :=
      py.dials_of_digit (py.digit_of_isDigit (Date.isDigit_of_mem_padded h))
    simp only [mem_append, mem_cons] at hc
    obtain (hc | rfl | hc) | rfl | hc := hc
    · exact hdigits _ _ hc
    · exact hdash
    · exact hdigits _ _ hc
    · exact hdash
    · exact hdigits _ _ hc
  · obtain ⟨a, year, hcons⟩ := exists_cons_of_length_pos (Nat.lt_of_lt_of_le (by decide) hyear)
    have ha := py.digit_of_isDigit (Date.isDigit_of_mem_padded (hcons ▸ mem_cons_self))
    rw [hcons]
    simpa using ha
  · obtain hnil | ⟨day, z, hconcat⟩ := eq_nil_or_concat (Date.padded 2 d.day).toList
    · rw [hnil] at hday
      cases hday
    · have hz : py.digit z = true := py.digit_of_isDigit (Date.isDigit_of_mem_padded (by rw [hconcat]; simp))
      rw [hconcat]
      simpa [List.getLast?_append, List.getLast?_cons] using hz

theorem not_left_of_dialled {stretch more u v : List Char} (h : py.Dialled stretch) (hu : py.Closed u)
    (hv : (more ++ v).head?.any py.word = false) (template : List (Nat × List Char) → List Char) :
    ¬ ∃ u' v', py.phone.Leaves template (stretch ++ more) u v u' v' := by
  obtain ⟨c, hlast, hc⟩ := hu
  have hlength := h.length
  rw [Regex.leaves_iff py.greedy_phone py.joined_phone]
  intro hclear
  have hphone : py.PhoneAt u stretch (more ++ v) := ⟨by rw [hlast]; exact hc, hv, stretch, .inl rfl, h⟩
  refine hclear u stretch (more ++ v) (by simp) hphone.ne_nil (py.phone_matches.mpr hphone) ⟨?_, ?_⟩
  · rw [length_append]
    omega
  · omega

theorem head?_separator {separator : String} (h : separator ∈ rangeSeparators) (rest : List Char) :
    (separator.toList ++ rest).head?.any py.word = false := by
  have hascii (c : Char) (hc : c.toNat < 128 ∧ (c.isAlphanum || c = '_') = false) : py.word c = false := by
    rw [py.word_ascii c hc.1]
    exact hc.2
  simp only [rangeSeparators, mem_cons, not_mem_nil, or_false] at h
  obtain rfl | rfl | rfl | rfl | rfl | rfl := h
  · exact hascii '.' (by decide)
  · exact hascii '/' (by decide)
  · exact py.word_dash
  all_goals exact hascii ' ' (by decide)

theorem not_left_of_date {text u t v u' v' : List Char} (h : py.Standing text u t v) (ht : IsDate t ∨ IsRange t)
    (hspared : py.Spared credentials t u v u' v') : ¬ ∃ u₁ v₁, py.phone.Leaves (replacement .phone) t u' v' u₁ v₁ := by
  have hclosed := py.closed_of_spared credentials t u v u' v' hspared ⟨' ', h.before, py.word_space⟩
  have hhead := py.head?_of_spared credentials (by decide) t u v u' v' hspared h.behind
  obtain ⟨d, ht⟩ | ⟨d, e, separator, hseparator, ht⟩ := ht
  · have hbehind : ([] ++ v').head?.any py.word = false := by
      rw [nil_append, hhead]
      exact py.word_space
    rw [ht, ← append_nil d.isoformat.toList]
    exact py.not_left_of_dialled (py.dialled_isoformat d) hclosed hbehind (replacement .phone)
  · rw [ht]
    refine py.not_left_of_dialled (py.dialled_isoformat d) hclosed ?_ (replacement .phone)
    rw [append_assoc]
    exact py.head?_separator hseparator _

theorem spared_iff_harmless (text : String) :
    (∀ u t v, py.Standing text.toList u t v → ∃ u' v', py.Spared textPatterns t u v u' v') ↔ py.Harmless text := by
  have hpatterns : textPatterns = credentials ++ [.phone] := rfl
  constructor
  · intro h u t v hstanding
    obtain ⟨u', v', hspared⟩ := h u t v hstanding
    rw [hpatterns, spared_append] at hspared
    obtain ⟨u₁, v₁, hspared, u₂, v₂, hphone, -⟩ := hspared
    have hleft : ∃ u₂ v₂, py.phone.Leaves (replacement .phone) t u₁ v₁ u₂ v₂ := ⟨u₂, v₂, hphone⟩
    refine ⟨?_, u₁, v₁, hspared, (py.phone_leaves_iff t u₁ v₁).mp hleft⟩
    obtain ht | ht | ht := hstanding.figure
    · exact absurd hleft (py.not_left_of_date hstanding (.inl ht) hspared)
    · exact absurd hleft (py.not_left_of_date hstanding (.inr ht) hspared)
    · exact ht
  · intro h u t v hstanding
    obtain ⟨-, u₁, v₁, hspared, hclear⟩ := h u t v hstanding
    obtain ⟨u', v', hphone⟩ := (py.phone_leaves_iff t u₁ v₁).mpr hclear
    refine ⟨u', v', ?_⟩
    rw [hpatterns, spared_append]
    exact ⟨u₁, v₁, hspared, u', v', hphone, rfl, rfl⟩

theorem kept_redactText_iff (text : String) : py.Kept text (py.redaction.redactText text) ↔ py.Harmless text := by
  rw [← py.spared_iff_harmless]
  constructor
  · intro h u t v hstanding
    obtain ⟨u', v', hspared, -⟩ := h u t v hstanding
    exact ⟨u', v', hspared⟩
  · intro h u t v hstanding
    obtain ⟨u', v', hspared⟩ := h u t v hstanding
    exact ⟨u', v', hspared, py.toList_of_spared textPatterns text t u v u' v' hstanding.split hspared⟩

/-! A text in parts. -/

theorem redactText_of_uncut (ps : List TextPattern) : ∀ (text : String) (parts : List String),
    text.toList = (parts.map String.toList).flatten → py.Uncut ps (parts.map String.toList) →
      (ps.foldl (fun text p => py.redaction.sub p text) text).toList =
        ((parts.map fun part => ps.foldl (fun text p => py.redaction.sub p text) part).map String.toList).flatten := by
  induction ps with
  | nil =>
    intro text parts htext _
    simpa using htext
  | cons p ps ih =>
    rintro text parts htext ⟨hscan, huncut⟩
    have hsub : (parts.map (py.redaction.sub p)).map String.toList =
        (parts.map String.toList).map ((py.pattern p).sub (replacement p)) := by
      simp [redaction, Function.comp_def]
    have hjoined : (py.redaction.sub p text).toList = ((parts.map (py.redaction.sub p)).map String.toList).flatten := by
      rw [hsub, redaction, String.toList_ofList, htext, Regex.sub_flatten hscan]
    have hrest := ih (py.redaction.sub p text) (parts.map (py.redaction.sub p)) hjoined (by rw [hsub]; exact huncut)
    simpa [Function.comp_def] using hrest

end PythonText
/-! What is delivered of events. -/

namespace Redaction
variable {κ α : Type} (r : Redaction κ)

mutual

/-- The texts in a value that are not stored under sensitive keys. -/
def textsOf (key : PayloadKey κ) (value : PayloadValue κ α) : List String :=
  if r.isSensitiveKey key then []
  else
    match value with
    | .text s => [s]
    | .leaf _ => []
    | .list items => textsOfItems items
    | .tuple items => textsOfItems items
    | .mapping entries => textsOfEntries entries

def textsOfItems : List (PayloadValue κ α) → List String
  | [] => []
  | item :: items => textsOf (.str "") item ++ textsOfItems items

def textsOfEntries : List (PayloadKey κ × PayloadValue κ α) → List String
  | [] => []
  | (key, item) :: entries => textsOf key item ++ textsOfEntries entries

end

def publicTexts (event : PrivateEvent κ α) : List String :=
  (truthy event.title).toList ++ (truthy event.summary).toList ++ r.textsOfEntries (publicEntries event)

def deliveredTexts (event : PrivateEvent κ α) : List String :=
  event.title.toList ++ event.summary.toList ++ r.textsOfEntries (entriesOf event.payload)

mutual

theorem textsOf_redactData (key : PayloadKey κ) (value : PayloadValue κ α) :
    r.textsOf key (r.redactData key value) = (r.textsOf key value).map r.redactText := by
  unfold redactData textsOf
  by_cases hkey : r.isSensitiveKey key = true
  · rw [if_pos hkey, if_pos hkey]
    rfl
  · rw [if_neg hkey, if_neg hkey, if_neg hkey]
    cases value with
    | text | leaf => rfl
    | list items => exact textsOfItems_redactItems items
    | tuple items => exact textsOfItems_redactItems items
    | mapping entries => exact textsOfEntries_redactEntries entries

theorem textsOfItems_redactItems (items : List (PayloadValue κ α)) :
    r.textsOfItems (r.redactItems items) = (r.textsOfItems items).map r.redactText := by
  cases items with
  | nil => rfl
  | cons item items =>
    rw [redactItems, textsOfItems, textsOfItems, map_append, textsOf_redactData, textsOfItems_redactItems items]

theorem textsOfEntries_redactEntries (entries : List (PayloadKey κ × PayloadValue κ α)) :
    r.textsOfEntries (r.redactEntries entries) = (r.textsOfEntries entries).map r.redactText := by
  cases entries with
  | nil => rfl
  | cons entry entries =>
    obtain ⟨key, item⟩ := entry
    rw [redactEntries, textsOfEntries, textsOfEntries, map_append, textsOf_redactData,
      textsOfEntries_redactEntries entries]

end

variable {e : PrivateEvent κ α} {principal : Principal}

theorem deliveredTexts_eq {d : PrivateEvent κ α} (h : r.eventForPrincipal e principal = some d) :
    r.deliveredTexts d = (r.publicTexts e).map r.redactText := by
  obtain ⟨-, hentries, hd⟩ := r.eventForPrincipal_some h
  have htexts := r.textsOfEntries_redactEntries (publicEntries e)
  rw [← hentries] at htexts
  rw [deliveredTexts, publicTexts, htexts, hd]
  cases truthy e.title <;> cases truthy e.summary <;> simp

/-- The text of an `answer.delta` event. -/
def deltaOf (event : PrivateEvent κ α) : Option String :=
  match event.payload.get? "delta" with
  | some (.text s) => some s
  | _ => none

def answerText (events : List (PrivateEvent κ α)) : String := String.join (events.filterMap deltaOf)

def deliver (principal : Principal) (events : List (PrivateEvent κ α)) : List (PrivateEvent κ α) :=
  events.filterMap fun event => r.eventForPrincipal event principal

theorem get?_delivered {d : PrivateEvent κ α} (h : r.eventForPrincipal e principal = some d) {key : String}
    (hkey : key ∈ publicEventFields) : d.payload.get? key = (e.payload.get? key).map (r.redactData (.str key)) := by
  have hpublic : (fun entry : String × PayloadValue κ α => decide (decide (entry.1 ∈ publicEventFields) = true ∧
      decide (entry.1 = key) = true)) = fun entry => decide (entry.1 = key) := by
    funext entry
    by_cases hentry : entry.1 = key
    · simp [hentry, hkey]
    · simp [hentry]
  unfold eventForPrincipal at h
  split at h
  · cases h
  · obtain rfl := Option.some.inj h
    rw [Dict.get?, Table.get?_mapRows, Dict.get?, Table.get?, Table.get?, Table.filter, List.find?_filter]
    rw [hpublic]
    cases hfind : e.payload.rows.find? fun entry => decide (entry.1 = key) with
    | none => rfl
    | some entry =>
      have hentry : entry.1 = key := by simpa using List.find?_some hfind
      rw [← hentry]
      rfl

theorem exists_delivered (h : canViewEvent r.lower e.toActivity principal = true) :
    ∃ d, r.eventForPrincipal e principal = some d := by
  unfold eventForPrincipal
  rw [h]
  exact ⟨_, rfl⟩

end Redaction

namespace PythonText
variable {κ α : Type} (py : PythonText κ)

theorem isSensitiveKey_delta : py.redaction.isSensitiveKey (.str "delta") = false := by
  have hlower : py.redaction.lower (py.redaction.keyText (.str "delta")) = "delta" :=
    py.lower_lower "delta" (List.all_eq_true.mp (by decide))
  rw [Redaction.isSensitiveKey, hlower]
  decide

variable {principal : Principal}

theorem deltaOf_delivered {e d : PrivateEvent κ α} (h : py.redaction.eventForPrincipal e principal = some d) :
    Redaction.deltaOf d = (Redaction.deltaOf e).map py.redaction.redactText := by
  have hkey : ¬ py.redaction.isSensitiveKey (.str "delta") = true := by simp [py.isSensitiveKey_delta]
  rw [Redaction.deltaOf, py.redaction.get?_delivered h (by decide), Redaction.deltaOf]
  cases e.payload.get? "delta" with
  | none => rfl
  | some value =>
    rw [Option.map_some]
    unfold Redaction.redactData
    rw [if_neg hkey]
    cases value <;> rfl

theorem filterMap_deltaOf_deliver (events : List (PrivateEvent κ α))
    (hview : ∀ e ∈ events, canViewEvent py.lower e.toActivity principal = true) :
    (py.redaction.deliver principal events).filterMap Redaction.deltaOf =
      (events.filterMap Redaction.deltaOf).map py.redaction.redactText := by
  induction events with
  | nil => rfl
  | cons e events ih =>
    obtain ⟨d, hd⟩ := py.redaction.exists_delivered (hview e mem_cons_self)
    have hrest := ih fun e he => hview e (mem_cons_of_mem _ he)
    rw [Redaction.deliver] at hrest
    rw [Redaction.deliver, filterMap_cons, hd]
    simp only [filterMap_cons, py.deltaOf_delivered hd]
    cases Redaction.deltaOf e with
    | none => exact hrest
    | some delta =>
      simp only [Option.map_some, map_cons]
      rw [hrest]

/-- What the deltas and the public texts of some events are delivered as. -/
structure Intact (principal : Principal) (events : List (PrivateEvent κ α)) : Prop where
  texts : ∀ e ∈ events, ∀ d, py.redaction.eventForPrincipal e principal = some d →
    List.Forall₂ py.Kept (py.redaction.publicTexts e) (py.redaction.deliveredTexts d)
  answer : py.Kept (Redaction.answerText events) (Redaction.answerText (py.redaction.deliver principal events))
  whole : Redaction.answerText (py.redaction.deliver principal events) =
    py.redaction.redactText (Redaction.answerText events)

structure HarmlessEvents (events : List (PrivateEvent κ α)) : Prop where
  texts : ∀ e ∈ events, ∀ text ∈ py.redaction.publicTexts e, py.Harmless text
  answer : py.Harmless (Redaction.answerText events)

def UncutEvents (events : List (PrivateEvent κ α)) : Prop :=
  py.Uncut textPatterns ((events.filterMap Redaction.deltaOf).map String.toList)

theorem answerText_deliver (events : List (PrivateEvent κ α))
    (hview : ∀ e ∈ events, canViewEvent py.lower e.toActivity principal = true) (huncut : py.UncutEvents events) :
    Redaction.answerText (py.redaction.deliver principal events) =
      py.redaction.redactText (Redaction.answerText events) := by
  refine String.toList_inj.mp ?_
  rw [Redaction.answerText, py.filterMap_deltaOf_deliver events hview, String.toList_join, flatMap_def,
    Redaction.redactText, py.redactText_of_uncut textPatterns _ (events.filterMap Redaction.deltaOf) ?_ huncut]
  · rfl
  · rw [Redaction.answerText, String.toList_join, flatMap_def]

/-- Events are delivered intact where their texts are harmless and no cut between two deltas makes, changes or
breaks a match; and they are only where the texts are harmless. -/
theorem intact_iff (principal : Principal) (events : List (PrivateEvent κ α))
    (hview : ∀ e ∈ events, canViewEvent py.lower e.toActivity principal = true) :
    (py.HarmlessEvents events ∧ py.UncutEvents events → py.Intact principal events) ∧
      (py.Intact principal events → py.HarmlessEvents events) := by
  constructor
  · rintro ⟨⟨htexts, hanswer⟩, huncut⟩
    have hwhole := py.answerText_deliver events hview huncut
    refine ⟨?_, ?_, hwhole⟩
    · intro e he d hd
      rw [py.redaction.deliveredTexts_eq hd, forall₂_map_right_iff]
      exact forall₂_same.mpr fun text htext => (py.kept_redactText_iff text).mpr (htexts e he text htext)
    · rw [hwhole]
      exact (py.kept_redactText_iff _).mpr hanswer
  · rintro ⟨htexts, hanswer, -⟩
    constructor
    · intro e he text htext
      obtain ⟨d, hd⟩ := py.redaction.exists_delivered (hview e he)
      have hkept := htexts e he d hd
      rw [py.redaction.deliveredTexts_eq hd, forall₂_map_right_iff] at hkept
      exact (py.kept_redactText_iff text).mp (forall₂_same.mp hkept text htext)
    · rw [← py.spared_iff_harmless]
      intro u t v hstanding
      obtain ⟨u', v', hspared, -⟩ := hanswer u t v hstanding
      exact ⟨u', v', hspared⟩

/-! A date, and a key that is split over two deltas. -/

theorem leaves_of_plain {r : Regex} {template : List (Nat × List Char) → List Char} {t u v u' v' : List Char}
    (hplain : r.scan (u ++ t ++ v) = (u ++ t ++ v).map .plain) (h : r.Leaves template t u v u' v') :
    u' = u ∧ v' = v := by
  obtain ⟨P, Q, hscan, rfl, rfl, rfl, rfl⟩ := h
  have hrendered (pieces : List Piece) (hpieces : ∀ piece ∈ pieces, ∃ c, piece = .plain c) :
      pieces.flatMap (Piece.rendered template) = textOf pieces := by
    refine flatMap_congr fun piece hpiece => ?_
    obtain ⟨c, rfl⟩ := hpieces piece hpiece
    rfl
  have hall (piece : Piece) (hpiece : piece ∈ P ∨ piece ∈ Q) : ∃ c, piece = .plain c := by
    have hmem : piece ∈ r.scan (textOf P ++ t ++ textOf Q) := by
      rw [hscan, append_assoc, mem_append, mem_append]
      exact hpiece.imp_right .inr
    rw [hplain] at hmem
    obtain ⟨c, -, rfl⟩ := List.mem_map.mp hmem
    exact ⟨c, rfl⟩
  exact ⟨hrendered P fun piece h => hall piece (.inl h), hrendered Q fun piece h => hall piece (.inr h)⟩

/-- No part lies in a match where there is none. -/
theorem not_inside_of_plain {t u v : List Char} (ps : List TextPattern)
    (hplain : ∀ p ∈ ps, (py.pattern p).scan (u ++ t ++ v) = (u ++ t ++ v).map .plain) : ¬ py.Inside ps t u v := by
  induction ps with
  | nil => exact id
  | cons p ps ih =>
    have hp := hplain p mem_cons_self
    rintro (⟨P, m, groups, Q, hscan, -⟩ | ⟨u₁, v₁, hleaves, hinside⟩)
    · have hmem : Piece.found m groups ∈ (u ++ t ++ v).map Piece.plain := by
        rw [← hp, hscan]
        simp
      simp at hmem
    · obtain ⟨rfl, rfl⟩ := leaves_of_plain hp hleaves
      exact ih (fun q hq => hplain q (mem_cons_of_mem p hq)) hinside

end PythonText

def asciiText : PythonText Nat where
  word c := c.isAlphanum || c = '_'
  digit := Char.isDigit
  space c := c = ' ' || 9 ≤ c.toNat && c.toNat ≤ 13 || 28 ≤ c.toNat && c.toNat ≤ 31
  lower := String.toLower
  str := toString
  word_ascii _ _ := rfl
  word_dash := rfl
  digit_ascii _ _ := rfl
  lower_lower s h := by
    rw [← String.toList_inj, String.toLower, String.toList_map]
    refine (map_congr_left fun c hc => ?_).trans (List.map_id _)
    have hlower := h c hc
    simp only [Char.isLower, ge_iff_le, UInt32.le_iff_toNat_le, Bool.and_eq_true, decide_eq_true_eq] at hlower
    rw [Char.toLower, dif_neg]
    · rfl
    · simp only [ge_iff_le, UInt32.le_iff_toNat_le]
      exact fun hupper => absurd (Nat.le_trans hlower.1 hupper.2) (by decide)

def answerDelta (delta : String) : PrivateEvent Nat Int :=
  { Redaction.ownedEvent with eventType := "answer.delta", payload := Dict.empty.set "delta" (.text delta) }

def viewer : Principal where
  principalId := "p"
  workspaceId := "w"
  userId := "owner"
  authenticated := true

theorem viewer_intact_iff :
    (asciiText.HarmlessEvents [answerDelta "Sales", answerDelta " rose."] ∧
        asciiText.UncutEvents [answerDelta "Sales", answerDelta " rose."] →
      asciiText.Intact viewer [answerDelta "Sales", answerDelta " rose."]) ∧
    (asciiText.Intact viewer [answerDelta "Sales", answerDelta " rose."] →
      asciiText.HarmlessEvents [answerDelta "Sales", answerDelta " rose."]) :=
  asciiText.intact_iff viewer _ (by decide)

/-- The date is taken for a phone number, and the key is delivered. -/
theorem dated_not_intact : ¬ asciiText.Intact viewer [answerDelta "Sales on 2024-01-05 rose."] ∧
    ¬ asciiText.Intact viewer [answerDelta "The key sk-abcdefgh", answerDelta "ijklmnop works."] := by
  constructor
  · intro h
    have hstanding : asciiText.Standing (Redaction.answerText [answerDelta "Sales on 2024-01-05 rose."]).toList
        "Sales on ".toList "2024-01-05".toList " rose.".toList := by
      refine ⟨by decide, .inl ⟨⟨2024, 1, 5, by decide, by decide, by decide⟩, by decide⟩,
        by decide, by decide, ?_⟩
      exact asciiText.not_inside_of_plain PythonText.credentials (by decide)
    obtain ⟨u', v', -, hdelivered⟩ := h.answer _ _ _ hstanding
    have hmem : '2' ∈ (Redaction.answerText
        (asciiText.redaction.deliver viewer [answerDelta "Sales on 2024-01-05 rose."])).toList := by
      rw [hdelivered]
      exact mem_append_left v' (mem_append_right u' (by decide))
    revert hmem
    decide +kernel
  · intro h
    have hwhole := h.whole
    revert hwhole
    decide +kernel

end SelericSwarm
