import SelericSwarm.Partitions
import SelericSwarm.SpokenSummary

/-! `llm/structured.py`: the object in an answer of the model. -/
namespace SelericSwarm.Llm
open Partition Voice List Option
variable {V ε M : Type}

/-- What `json.loads` raises. -/
inductive LoadsError (ε : Type) where
  | decode (text : String)
  | other (e : ε)

/-- The json module. -/
structure JsonModule (V ε : Type) where
  dumps : V → List Char
  loads : List Char → Except (LoadsError ε) V
  isDict : V → Bool

inductive Raised (ε : Type) where
  | structuredOutput (message : String) (retryCount : Nat)
  | other (e : ε)

structure LLMResponse where
  text : List Char
  retryCount : Nat

def fence : List Char := ['\x60', '\x60', '\x60']

def strip (text : List Char) : List Char := trim isSpace isSpace text

/-- `(?:json)?`, where case is ignored. -/
def afterJson : List Char → List Char
  | j :: s :: o :: n :: text =>
    if j ∈ ['j', 'J'] ∧ s ∈ ['s', 'S', 'ſ'] ∧ o ∈ ['o', 'O'] ∧ n ∈ ['n', 'N'] then text else j :: s :: o :: n :: text
  | text => text

/-- What is within a fence, without the language and the blanks around it. -/
def within (body : List Char) : List Char := strip ((afterJson body).dropWhile isSpace)

/-- `_FENCE_RE`: what is read between the fences has no backtick before the second one, so these are the first
two. -/
def fenced? (raw : List Char) : Option (List Char) :=
  (partition? fence raw).bind fun (_, behind) => (partition? fence behind).map fun (body, _) => within body

/-- From the first opening brace to the last closing one; nothing, if that does not come later. -/
def braced (raw : List Char) : List Char := trim (· ≠ '{') (· ≠ '}') raw

def jsonPart (text : List Char) : List Char := braced ((fenced? (strip text)).getD (strip text))

def extractJsonObject (json : JsonModule V ε) (text : List Char) : Except (Raised ε) V :=
  if jsonPart text = [] then .error (.structuredOutput "LLM response did not contain a JSON object" 0)
  else match json.loads (jsonPart text) with
    | .error (.decode exc) => .error (.structuredOutput s!"LLM JSON parse failed: {exc}" 0)
    | .error (.other exc) => .error (.other exc)
    | .ok value => if json.isDict value then .ok value else .error (.structuredOutput "LLM JSON was not an object" 0)

def parseStructured (json : JsonModule V ε) (modelValidate : V → Except String M) (raw : LLMResponse) :
    Except (Raised ε) M :=
  match extractJsonObject json raw.text with
  | .error raised => .error raised
  | .ok payload => match modelValidate payload with
    | .error exc => .error (.structuredOutput exc raw.retryCount)
    | .ok model => .ok model

/-- What the code relies on: texts of objects are read back, stand between braces, and nothing shorter is read. -/
structure JsonModule.Lawful (json : JsonModule V ε) : Prop where
  readBack : ∀ v, json.isDict v = true → json.loads (json.dumps v) = .ok v
  braces : ∀ v, json.isDict v = true → ∃ inner, json.dumps v = '{' :: inner ++ ['}']
  noneShorter : ∀ v, json.isDict v = true → ∀ text, text <+: json.dumps v → text ≠ json.dumps v →
    ∃ exc, json.loads text = .error (.decode exc)

/-- Neither braces nor backticks. -/
def Prose (text : List Char) : Prop := ∀ c ∈ text, c ≠ '{' ∧ c ≠ '}' ∧ c ≠ '\x60'

/-- The object is found in prose and in a fence, and nothing else is read from within its text. -/
structure Decoded (json : JsonModule V ε) (v : V) : Prop where
  bare : ∀ front back, Prose front → Prose back → extractJsonObject json (front ++ json.dumps v ++ back) = .ok v
  inFence : ∀ opening ∈ ["```", "```json"], ∀ front back, Prose front → Prose back →
    extractJsonObject json (opening.toList ++ (front ++ json.dumps v ++ back) ++ fence) = .ok v
  whole : ∀ front back, json.dumps v <:+: jsonPart (front ++ json.dumps v ++ back) ∨
    jsonPart (front ++ json.dumps v ++ back) <:+: front ∨ jsonPart (front ++ json.dumps v ++ back) <:+: back

/-- There is an object, or the error that is meant for this. -/
def Settled (json : JsonModule V ε) (text : List Char) : Prop :=
  (∃ v, extractJsonObject json text = .ok v ∧ json.isDict v = true) ∨
    ∃ message, extractJsonObject json text = .error (.structuredOutput message 0)

variable {json : JsonModule V ε} {inner : List Char}

/-! What is around an object that has no fence. -/

theorem partition?_around (h : ¬ fence <:+: '{' :: inner ++ ['}']) (front back : List Char) :
    partition? fence (front ++ ('{' :: inner ++ ['}']) ++ back) = match partition? fence front with
      | some (before, behind) => some (before, behind ++ ('{' :: inner ++ ['}']) ++ back)
      | none => (partition? fence back).map fun (before, behind) => (front ++ ('{' :: inner ++ ['}']) ++ before, behind) := by
  have hfence : fence ≠ [] := by decide
  have hinner : partition? fence ('{' :: inner) = none :=
    (partition?_eq_none hfence).mpr fun hin => h (hin.trans (prefix_append _ _).isInfix)
  have hback : partition? fence ('}' :: back) = (partition? fence back).map fun (before, behind) => ('}' :: before, behind) := by
    rw [partition?, if_neg (by simp [fence])]
  have hshape : front ++ ('{' :: inner ++ ['}']) ++ back = front ++ '{' :: (inner ++ '}' :: back) := by simp
  rw [hshape, partition?_append (by decide), ← cons_append, partition?_append (by decide), hinner, hback]
  cases partition? fence front <;> simp [Function.comp_def]

theorem afterJson_append (front back : List Char) : afterJson (front ++ '{' :: back) = afterJson front ++ '{' :: back := by
  rcases front with _ | ⟨a, _ | ⟨b, _ | ⟨c, _ | ⟨d, front⟩⟩⟩⟩
  -- where less than four characters stand before the brace, it is among the four that are looked at
  iterate 4 rcases back with _ | ⟨x, _ | ⟨y, _ | ⟨z, back⟩⟩⟩ <;> simp [afterJson]
  simp only [cons_append, afterJson]
  split <;> rfl

theorem afterJson_suffix (body : List Char) : afterJson body <:+ body := by
  unfold afterJson
  split
  · split
    · exact ⟨[_, _, _, _], rfl⟩
    · exact suffix_rfl
  · exact suffix_rfl

theorem strip_around (front back : List Char) : strip (front ++ ('{' :: inner ++ ['}']) ++ back) =
    front.dropWhile isSpace ++ ('{' :: inner ++ ['}']) ++ back.rdropWhile isSpace := by
  have htrim := trim_append (p := isSpace) (q := isSpace) (x := '{') (y := '}') (by decide) (by decide) front inner back
  simpa [strip] using htrim

theorem braced_around (front back : List Char) : braced (front ++ ('{' :: inner ++ ['}']) ++ back) =
    front.dropWhile (· ≠ '{') ++ ('{' :: inner ++ ['}']) ++ back.rdropWhile (· ≠ '}') := by
  have htrim := trim_append (p := (· ≠ '{')) (q := (· ≠ '}')) (x := '{') (y := '}') (by decide) (by decide) front inner back
  simpa [braced] using htrim

theorem within_around (inner front back : List Char) : ∃ front' back', front' <:+ front ∧ back' <+: back ∧
    within (front ++ ('{' :: inner ++ ['}']) ++ back) = front' ++ ('{' :: inner ++ ['}']) ++ back' := by
  refine ⟨((afterJson front).dropWhile isSpace).dropWhile isSpace, back.rdropWhile isSpace, ?_, rdropWhile_prefix _ _, ?_⟩
  · exact ((dropWhile_suffix _).trans (dropWhile_suffix _)).trans (afterJson_suffix front)
  · have hopen : isSpace '{' = false := by decide
    rw [within, append_assoc, append_assoc, cons_append, cons_append, afterJson_append,
      dropWhile_append_cons hopen, ← strip_around]
    simp

theorem within_part (body : List Char) : within body <:+: body :=
  (trim_part _).trans ((dropWhile_suffix isSpace).trans (afterJson_suffix body)).isInfix

theorem braced_part (raw : List Char) : braced raw <:+: raw := trim_part raw

theorem whole_of_fenceless (h : ¬ fence <:+: '{' :: inner ++ ['}']) (front back : List Char) :
    '{' :: inner ++ ['}'] <:+: jsonPart (front ++ ('{' :: inner ++ ['}']) ++ back) ∨
      jsonPart (front ++ ('{' :: inner ++ ['}']) ++ back) <:+: front ∨
      jsonPart (front ++ ('{' :: inner ++ ['}']) ++ back) <:+: back := by
  have hread : ∀ front back, '{' :: inner ++ ['}'] <:+: braced (front ++ ('{' :: inner ++ ['}']) ++ back) := by
    intro front back
    rw [braced_around]
    exact infix_append _ _ _
  have hfront : front.dropWhile isSpace <:+: front := (dropWhile_suffix _).isInfix
  have hback : back.rdropWhile isSpace <:+: back := (List.rdropWhile_prefix _ _).isInfix
  rw [jsonPart, strip_around]
  generalize front.dropWhile isSpace = front' at hfront ⊢
  generalize back.rdropWhile isSpace = back' at hback ⊢
  rw [fenced?, partition?_around h]
  cases hfirst : partition? fence front' with
  | some found =>
    obtain ⟨before, behind⟩ := found
    have hbehind : behind <:+: front' := by
      rw [partition?_some hfirst]
      exact (suffix_append _ _).isInfix
    simp only [bind_some, partition?_around h]
    cases hsecond : partition? fence behind with
    | some found =>
      -- both fences stand before the object
      have hbody : found.1 <:+: behind := by
        rw [partition?_some hsecond, append_assoc]
        exact (prefix_append _ _).isInfix
      exact .inr (.inl ((braced_part _).trans ((within_part _).trans (hbody.trans (hbehind.trans hfront)))))
    | none =>
      cases partition? fence back' with
      | some found =>
        -- the object stands between the two
        obtain ⟨front₂, back₂, -, -, hwithin⟩ := within_around inner behind found.1
        left
        simp only [map_some, getD_some]
        rw [hwithin]
        exact hread front₂ back₂
      | none => exact .inl (hread front' back')
  | none =>
    cases hfirst : partition? fence back' with
    | some found =>
      obtain ⟨before, behind⟩ := found
      simp only [map_some, bind_some]
      cases hsecond : partition? fence behind with
      | some found =>
        have hbody : found.1 <:+: back' := by
          rw [partition?_some hfirst, partition?_some hsecond]
          exact ⟨before ++ fence, fence ++ found.2, by simp⟩
        exact .inr (.inr ((braced_part _).trans ((within_part _).trans (hbody.trans hback))))
      | none => exact .inl (hread front' back')
    | none => exact .inl (hread front' back')

/-! Prose holds no fence and no brace. -/

theorem partition?_prose {text : List Char} (h : Prose text) (t : List Char) :
    partition? fence (text ++ t) = (partition? fence t).map fun (before, behind) => (text ++ before, behind) := by
  induction text with
  | nil => simp
  | cons c text ih =>
    obtain ⟨hc, hrest⟩ := forall_mem_cons.mp h
    have hfence : ¬ fence <+: c :: (text ++ t) := fun hin => hc.2.2 (cons_prefix_cons.mp hin).1.symm
    rw [cons_append, partition?, if_neg hfence, ih hrest]
    simp [Function.comp_def]

theorem braced_of_prose {front back : List Char} (hf : Prose front) (hb : Prose back) :
    braced (front ++ ('{' :: inner ++ ['}']) ++ back) = '{' :: inner ++ ['}'] := by
  have hfront : front.dropWhile (· ≠ '{') = [] := dropWhile_eq_nil_iff.mpr fun c hc => decide_eq_true (hf c hc).1
  have hback : back.rdropWhile (· ≠ '}') = [] := rdropWhile_eq_nil_iff.mpr fun c hc => decide_eq_true (hb c hc).2.1
  rw [braced_around, hfront, hback, nil_append, append_nil]

theorem jsonPart_of_prose (h : ¬ fence <:+: '{' :: inner ++ ['}']) {front back : List Char} (hf : Prose front)
    (hb : Prose back) : jsonPart (front ++ ('{' :: inner ++ ['}']) ++ back) = '{' :: inner ++ ['}'] := by
  have hfront : Prose (front.dropWhile isSpace) := fun c hc => hf c ((dropWhile_suffix _).subset hc)
  have hback : Prose (back.rdropWhile isSpace) := fun c hc => hb c ((List.rdropWhile_prefix _ _).subset hc)
  have hnone : ∀ {text}, Prose text → partition? fence text = none := fun {text} htext => by
    simpa [partition?] using partition?_prose htext []
  rw [jsonPart, strip_around, fenced?, partition?_around h, hnone hfront, hnone hback]
  exact braced_of_prose hfront hback

theorem strip_fenced (text : List Char) : strip (fence ++ text ++ fence) = fence ++ text ++ fence := by
  have htrim := trim_append (p := isSpace) (q := isSpace) (x := '\x60') (y := '\x60') (by decide) (by decide) []
    (['\x60', '\x60'] ++ text ++ ['\x60', '\x60']) []
  simpa [strip, fence] using htrim

theorem fenced?_fenced (text : List Char) : fenced? (fence ++ text ++ fence) =
    (partition? fence (text ++ fence)).map fun (body, _) => within body := by
  rw [fenced?, append_assoc]
  simp [fence, partition?]

theorem jsonPart_fenced (h : ¬ fence <:+: '{' :: inner ++ ['}']) {front back : List Char} (hf : Prose front)
    (hb : Prose back) : jsonPart (fence ++ (front ++ ('{' :: inner ++ ['}']) ++ back) ++ fence) = '{' :: inner ++ ['}'] := by
  have hbehind : partition? fence (back ++ fence) = some (back, []) := by
    rw [partition?_prose hb]
    simp [partition?, fence]
  have hfront : partition? fence front = none := by simpa [partition?] using partition?_prose hf []
  obtain ⟨front', back', hf', hb', hwithin⟩ := within_around inner front back
  rw [jsonPart, strip_fenced, fenced?_fenced, append_assoc, partition?_around h, hfront, hbehind]
  simp only [map_some, getD_some]
  rw [hwithin]
  exact braced_of_prose (fun c hc => hf c (hf'.subset hc)) fun c hc => hb c (hb'.subset hc)

/-! A fence in the object ends the fence around it. -/

theorem dropWhile_of_prefix {p : List Char} (hp : p <+: '{' :: inner) : p.dropWhile (· ≠ '{') = p := by
  cases p with
  | nil => rfl
  | cons c p => rw [(cons_prefix_cons.mp hp).1, dropWhile_cons_of_neg (by decide)]

theorem jsonPart_short (h : fence <:+: '{' :: inner ++ ['}']) : ∃ text, jsonPart (fence ++ ('{' :: inner ++ ['}']) ++ fence) = text ∧
    text <+: '{' :: inner ++ ['}'] ∧ text ≠ '{' :: inner ++ ['}'] := by
  have hall : ∀ t, partition? fence ('{' :: inner ++ '}' :: t) = _ := fun t => partition?_append (by decide)
  cases hfirst : partition? fence ('{' :: inner) with
  | none =>
    have hnone : partition? fence ('{' :: inner ++ ['}']) = none := by
      rw [hall, hfirst]
      simp [partition?, fence]
    exact absurd h ((partition?_eq_none (by decide)).mp hnone)
  | some found =>
    obtain ⟨before, behind⟩ := found
    have hsplit := partition?_some hfirst
    have hshape : '{' :: inner ++ ['}'] ++ fence = '{' :: inner ++ '}' :: fence := by simp
    cases before with
    | nil => exact absurd hsplit (by simp [fence])
    | cons c before =>
      obtain rfl : '{' = c := (List.cons.inj hsplit).1
      have hbefore : '{' :: before <+: '{' :: inner := by
        rw [hsplit, append_assoc]
        exact prefix_append _ _
      have hwithin : within ('{' :: before) = ('{' :: before).rdropWhile isSpace := by
        have hjson := afterJson_append [] before
        rw [nil_append] at hjson
        rw [within, hjson, strip, trim]
        simp [afterJson, show isSpace '{' = false by decide]
      have hpart : jsonPart (fence ++ ('{' :: inner ++ ['}']) ++ fence) <+: '{' :: before := by
        rw [jsonPart, strip_fenced, fenced?_fenced, hshape, hall, hfirst]
        simp only [map_some, getD_some]
        rw [hwithin, braced, trim, dropWhile_of_prefix (List.rdropWhile_prefix _ _)]
        exact (List.rdropWhile_prefix _ _).trans (List.rdropWhile_prefix _ _)
      refine ⟨_, rfl, (hpart.trans hbefore).trans (prefix_append _ _), fun hsame => ?_⟩
      have hlong := (hpart.trans hbefore).length_le
      rw [hsame, length_append, length_singleton] at hlong
      omega

theorem extractJsonObject_of_part {v : V} {text : List Char} (hjson : json.Lawful) (hv : json.isDict v = true)
    (h : jsonPart text = json.dumps v) : extractJsonObject json text = .ok v := by
  obtain ⟨inner, hinner⟩ := hjson.braces v hv
  have hne : json.dumps v ≠ [] := by
    rw [hinner]
    exact cons_ne_nil _ _
  rw [extractJsonObject, h, if_neg hne, hjson.readBack v hv]
  exact if_pos hv

theorem decoded_iff {v : V} (hjson : json.Lawful) (hv : json.isDict v = true) : Decoded json v ↔ ¬ fence <:+: json.dumps v := by
  obtain ⟨inner, hinner⟩ := hjson.braces v hv
  constructor
  · intro h hfence
    rw [hinner] at hfence
    obtain ⟨text, hpart, hshort, hne⟩ := jsonPart_short hfence
    rw [← hinner] at hpart hshort hne
    have hok := h.inFence "```" mem_cons_self [] [] (fun _ hc => nomatch hc) fun _ hc => nomatch hc
    obtain ⟨exc, hexc⟩ := hjson.noneShorter v hv text hshort hne
    rw [nil_append, append_nil, extractJsonObject] at hok
    rw [show "```".toList = fence by decide, hpart, hexc] at hok
    split at hok <;> cases hok
  · intro h
    have hfence := hinner ▸ h
    constructor
    · intro front back hf hb
      refine extractJsonObject_of_part hjson hv ?_
      rw [hinner]
      exact jsonPart_of_prose hfence hf hb
    · intro opening hopening front back hf hb
      refine extractJsonObject_of_part hjson hv ?_
      rw [hinner]
      rcases mem_pair.mp hopening with rfl | rfl
      · exact jsonPart_fenced hfence hf hb
      · have hlanguage : Prose ("json".toList ++ front) := by
          intro c hc
          obtain hc | hc := mem_append.mp hc
          · have hletters : ("json".toList.all fun c => c ≠ '{' ∧ c ≠ '}' ∧ c ≠ '\x60') = true := by decide
            exact of_decide_eq_true (List.all_eq_true.mp hletters c hc)
          · exact hf c hc
        have hpart := jsonPart_fenced hfence hlanguage hb
        rw [show "```json".toList = fence ++ "json".toList by decide]
        simpa only [append_assoc] using hpart
    · rw [hinner]
      exact whole_of_fenceless hfence

theorem settled_iff (text : List Char) : Settled json text ↔
    (jsonPart text ≠ [] → ∀ exc, json.loads (jsonPart text) ≠ .error (.other exc)) := by
  rw [Settled, extractJsonObject]
  by_cases hpart : jsonPart text = []
  · simp [hpart]
  · rw [if_neg hpart]
    rcases json.loads (jsonPart text) with (exc | exc) | value
    · simp [hpart]
    · simp [hpart]
    · by_cases hv : json.isDict value = true
      · simp [hv]
      · simp [hv]

/-- Exactly the objects whose texts hold no fence are decoded as they were encoded, and no other exception is
raised where the decoder raises none. -/
theorem extractJsonObject_lawful_iff (hjson : json.Lawful) :
    (∀ v, json.isDict v = true → (Decoded json v ↔ ¬ fence <:+: json.dumps v)) ∧ ∀ text, Settled json text ↔
      (jsonPart text ≠ [] → ∀ exc, json.loads (jsonPart text) ≠ .error (.other exc)) :=
  ⟨fun _ hv => decoded_iff hjson hv, settled_iff⟩

/-- Two objects: an empty one, and one whose `"a"` is an empty one within a fence. -/
def twoObjects : JsonModule Bool Empty where
  dumps quotes := if quotes then "\x7b\"a\": \"```\x7b\x7d```\"\x7d".toList else ['{', '}']
  loads text := if text = ['{', '}'] then .ok false
    else if text = "\x7b\"a\": \"```\x7b\x7d```\"\x7d".toList then .ok true else .error (.decode "Expecting value")
  isDict _ := true

theorem twoObjects_lawful : twoObjects.Lawful where
  readBack v _ := by cases v <;> rfl
  braces v _ := by
    cases v with
    | false => exact ⟨[], rfl⟩
    | true => exact ⟨"\"a\": \"```\x7b\x7d```\"".toList, rfl⟩
  noneShorter v _ text hshort hne := by
    have hother : ∀ w, text ≠ twoObjects.dumps w := by
      rintro w rfl
      revert hshort hne
      cases v <;> cases w <;> decide
    exact ⟨_, (if_neg (hother false)).trans (if_neg (hother true))⟩

theorem extractJsonObject_lawful_twoObjects : Decoded twoObjects false :=
  ((extractJsonObject_lawful_iff twoObjects_lawful).1 false rfl).mpr (by decide)

theorem quoted_fence_taken_apart : extractJsonObject twoObjects (twoObjects.dumps true) = .ok false ∧
    ¬ Decoded twoObjects true := by
  have hread : extractJsonObject twoObjects (twoObjects.dumps true) = .ok false := rfl
  refine ⟨hread, fun h => ?_⟩
  have hbare := h.bare [] [] (fun _ hc => nomatch hc) fun _ hc => nomatch hc
  rw [nil_append, append_nil, hread] at hbare
  cases hbare

end SelericSwarm.Llm
