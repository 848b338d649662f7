import SelericSwarm.Decimals
import SelericSwarm.Outcomes
import SelericSwarm.Submission

/-! `agent/intent.py`: the answers of the classifier, field by field. -/
namespace SelericSwarm.Intent

/-- A number with a fraction or an exponent, as the decoder gives it. -/
inductive JsonFloat where
  | nan
  | infinite (negative : Bool)
  | finite (q : ℚ)

/-- What the JSON decoder can return; the keys of an object are pairwise different. -/
inductive JsonValue where
  | null
  | bool (b : Bool)
  | int (n : Int)
  | float (x : JsonFloat)
  | text (s : String)
  | arr (items : List JsonValue)
  | obj (entries : List (String × JsonValue))

inductive Raised where
  | typeError
  | valueError
  | overflowError

def labels : List String :=
  ["conversation", "lookup", "aggregation", "comparison", "trend", "diagnostic", "forecast", "simulation",
    "causal_investigation"]

def grainLabels : List String := ["day", "week", "month", "none"]

def periodLabels : List String :=
  ["today", "yesterday", "last_7d", "last_30d", "this_month", "last_month", "this_quarter", "this_year",
    "custom_date_range", "none"]

def directionLabels : List String := ["increase", "decrease", "either"]

def complexityLevels : List String := ["simple", "moderate", "complex"]

structure QueryClassification where
  intent : Option String := none
  complexity : Option String := none
  needsWrite : Option Bool := none
  grain : Option String := none
  period : Option String := none
  direction : Option String := none
  dependsOnPrior : Option Bool := none

/-- The value that a node carries, under the first of these names it has. -/
def nodeValue : Option JsonValue → JsonValue
  | some (.obj node) => (["choice", "score", "noul", "answer", "value", "label"].findSome? fun name => node.lookup name).getD .null
  | _ => .null

def answerValue (answers : List (String × JsonValue)) (key : String) : JsonValue := nodeValue (answers.lookup key)

/-- What can be a key, or an element of a set. -/
def JsonValue.hashable : JsonValue → Bool
  | .arr _ | .obj _ => false
  | _ => true

/-- `value if value in labels else None` -/
def keep (offered : List String) : JsonValue → Except Raised (Option String)
  | .text s => .ok (if s ∈ offered then some s else none)
  | .arr _ | .obj _ => .error .typeError
  | _ => .ok none

def choice (answers : List (String × JsonValue)) (key : String) (offered : List String) : Except Raised (Option String) :=
  keep offered (answerValue answers key)

/-- `levels[min(len(levels) - 1, max(0, n))]` -/
def level (levels : List String) (n : Int) : Option String := levels[min (levels.length - 1) n.toNat]?

section
-- Python's `str.lower`, and `str` of what is not a text
variable (lower : String → String) (str : JsonValue → String)

def normalizeOrdinal (levels : List String) : JsonValue → Except Raised (Option String)
  | .bool _ | .null => .ok none
  | .int n => .ok (level levels n)
  | .float (.finite q) => .ok (level levels (Decimals.halfEven q))
  | .float .nan => .error .valueError
  | .float (.infinite _) => .error .overflowError
  | .text s =>
    let key := lower (strip s)
    .ok (if key ∈ levels then some key
      else (List.range levels.length).findSome? fun i => if key = toString i then levels[i]? else none)
  | .arr _ | .obj _ => .error .typeError

def normalizeBool : JsonValue → Option Bool
  | .bool b => some b
  | .int n => some (decide ((1 / 2 : ℚ) ≤ n))
  | .float .nan => some false
  | .float (.infinite negative) => some !negative
  | .float (.finite q) => some (decide (1 / 2 ≤ q))
  | value =>
    let token := lower (strip (match value with | .text s => s | _ => str value))
    if token ∈ ["yes", "true", "1"] then some true
    else if token ∈ ["no", "false", "0"] then some false
    else none

def parseAnswers : JsonValue → Except Raised QueryClassification
  | .obj answers => do
    let intent ← choice answers "intent" labels
    let complexity ← normalizeOrdinal lower complexityLevels (answerValue answers "complexity")
    let needsWrite := normalizeBool lower str (answerValue answers "needs_write")
    let grain ← choice answers "grain" grainLabels
    let period ← choice answers "period" periodLabels
    let direction ← choice answers "direction" directionLabels
    let dependsOnPrior := normalizeBool lower str (answerValue answers "depends_on_prior")
    return { intent, complexity, needsWrite, grain, period, direction, dependsOnPrior }
  | _ => .ok {}

/-- `_post_jev`, from the body of the response: no answers, or the block of them. -/
def postJev : Option JsonValue → Option JsonValue
  | some (.obj body) => (body.lookup "answers").filter fun answers => (answers matches .obj _)
  | _ => none

/-- `classify_query`; what `parseAnswers` raises, it raises as well. -/
def classifyQuery (body : Option JsonValue) : Except Raised QueryClassification :=
  parseAnswers lower str ((postJev body).getD .null)

end

/-! What a block of answers is worth. -/

variable {lower : String → String} {str : JsonValue → String}

/-- Each field is empty or one of the labels offered for it. -/
structure QueryClassification.Offered (r : QueryClassification) : Prop where
  intent : ∀ l ∈ r.intent, l ∈ labels
  complexity : ∀ l ∈ r.complexity, l ∈ complexityLevels
  grain : ∀ l ∈ r.grain, l ∈ grainLabels
  period : ∀ l ∈ r.period, l ∈ periodLabels
  direction : ∀ l ∈ r.direction, l ∈ directionLabels

/-- Each field is the same where the node under its key is. -/
structure SameFields (entries entries' : List (String × JsonValue)) (r r' : QueryClassification) : Prop where
  intent : entries'.lookup "intent" = entries.lookup "intent" → r'.intent = r.intent
  complexity : entries'.lookup "complexity" = entries.lookup "complexity" → r'.complexity = r.complexity
  needsWrite : entries'.lookup "needs_write" = entries.lookup "needs_write" → r'.needsWrite = r.needsWrite
  grain : entries'.lookup "grain" = entries.lookup "grain" → r'.grain = r.grain
  period : entries'.lookup "period" = entries.lookup "period" → r'.period = r.period
  direction : entries'.lookup "direction" = entries.lookup "direction" → r'.direction = r.direction
  dependsOnPrior : entries'.lookup "depends_on_prior" = entries.lookup "depends_on_prior" →
    r'.dependsOnPrior = r.dependsOnPrior

/-- The answers are read, into offered labels, and each field from its own node. -/
def Lawful (lower : String → String) (str : JsonValue → String) (answers : JsonValue) : Prop :=
  ∃ r, parseAnswers lower str answers = .ok r ∧ r.Offered ∧
    ∀ entries entries' r', answers = .obj entries → parseAnswers lower str (.obj entries') = .ok r' →
      SameFields entries entries' r r'

def JsonValue.roundable : JsonValue → Bool
  | .float .nan | .float (.infinite _) => false
  | _ => true

/-- No list or object stands where a label or a level is read, and no number there that cannot be rounded. -/
def Readable : JsonValue → Prop
  | .obj answers => (∀ key ∈ ["intent", "complexity", "grain", "period", "direction"],
      (answerValue answers key).hashable = true) ∧ (answerValue answers "complexity").roundable = true
  | _ => True

variable {value : JsonValue} {levels : List String} {r : QueryClassification}

theorem keep_ok_iff {offered : List String} : (∃ kept, keep offered value = .ok kept) ↔ value.hashable = true := by
  cases value <;> simp [keep, JsonValue.hashable]

theorem keep_offered {offered : List String} {kept : Option String} (h : keep offered value = .ok kept) :
    ∀ l ∈ kept, l ∈ offered := by
  intro l hl
  cases value with
  | text s =>
    obtain rfl := Except.ok.inj h
    obtain ⟨hs, heq⟩ := Option.ite_none_right_eq_some.mp hl
    cases heq
    exact hs
  | null | bool _ | int _ | float _ =>
    cases h
    cases hl
  | arr _ | obj _ => cases h

theorem normalizeOrdinal_ok_iff :
    (∃ kept, normalizeOrdinal lower levels value = .ok kept) ↔ value.hashable = true ∧ value.roundable = true := by
  cases value with
  | float x => cases x <;> simp [normalizeOrdinal, JsonValue.hashable, JsonValue.roundable]
  | _ => simp [normalizeOrdinal, JsonValue.hashable, JsonValue.roundable]

theorem mem_level {n : Int} : ∀ l ∈ level levels n, l ∈ levels := by
  intro l hl
  exact List.mem_of_getElem? hl

theorem normalizeOrdinal_offered {kept : Option String} (h : normalizeOrdinal lower levels value = .ok kept) :
    ∀ l ∈ kept, l ∈ levels := by
  intro l hl
  cases value with
  | null | bool _ =>
    cases h
    cases hl
  | int n =>
    cases h
    exact mem_level l hl
  | float x =>
    cases x with
    | finite q =>
      cases h
      exact mem_level l hl
    | nan => cases h
    | infinite negative => cases h
  | text s =>
    obtain rfl := Except.ok.inj h
    split at hl
    · next hmem =>
      cases hl
      exact hmem
    · obtain ⟨i, -, hi⟩ := List.exists_of_findSome?_eq_some hl
      obtain ⟨-, hlevel⟩ := Option.ite_none_right_eq_some.mp hi
      exact List.mem_of_getElem? hlevel
  | arr _ | obj _ => cases h

/-- A block of answers is read field by field. -/
structure Fields (lower : String → String) (str : JsonValue → String) (answers : List (String × JsonValue))
    (r : QueryClassification) : Prop where
  intent : choice answers "intent" labels = .ok r.intent
  complexity : normalizeOrdinal lower complexityLevels (answerValue answers "complexity") = .ok r.complexity
  needsWrite : normalizeBool lower str (answerValue answers "needs_write") = r.needsWrite
  grain : choice answers "grain" grainLabels = .ok r.grain
  period : choice answers "period" periodLabels = .ok r.period
  direction : choice answers "direction" directionLabels = .ok r.direction
  dependsOnPrior : normalizeBool lower str (answerValue answers "depends_on_prior") = r.dependsOnPrior

theorem parseAnswers_ok_iff {answers : List (String × JsonValue)} :
    parseAnswers lower str (.obj answers) = .ok r ↔ Fields lower str answers r := by
  constructor
  · intro h
    obtain ⟨intent, hintent, h⟩ := Outcomes.bind_eq_ok.mp h
    obtain ⟨complexity, hcomplexity, h⟩ := Outcomes.bind_eq_ok.mp h
    obtain ⟨grain, hgrain, h⟩ := Outcomes.bind_eq_ok.mp h
    obtain ⟨period, hperiod, h⟩ := Outcomes.bind_eq_ok.mp h
    obtain ⟨direction, hdirection, h⟩ := Outcomes.bind_eq_ok.mp h
    cases h
    exact ⟨hintent, hcomplexity, rfl, hgrain, hperiod, hdirection, rfl⟩
  · intro ⟨hintent, hcomplexity, hneeds, hgrain, hperiod, hdirection, hdepends⟩
    refine Outcomes.bind_eq_ok.mpr ⟨_, hintent, Outcomes.bind_eq_ok.mpr ⟨_, hcomplexity, ?_⟩⟩
    refine Outcomes.bind_eq_ok.mpr ⟨_, hgrain, Outcomes.bind_eq_ok.mpr ⟨_, hperiod, ?_⟩⟩
    refine Outcomes.bind_eq_ok.mpr ⟨_, hdirection, ?_⟩
    rw [hneeds, hdepends]
    rfl

theorem Fields.offered {answers : List (String × JsonValue)} (h : Fields lower str answers r) : r.Offered :=
  ⟨keep_offered h.intent, normalizeOrdinal_offered h.complexity, keep_offered h.grain, keep_offered h.period,
    keep_offered h.direction⟩

theorem Fields.same {entries entries' : List (String × JsonValue)} {r' : QueryClassification}
    (h : Fields lower str entries r) (h' : Fields lower str entries' r') : SameFields entries entries' r r' := by
  have hvalue : ∀ key, entries'.lookup key = entries.lookup key → answerValue entries' key = answerValue entries key :=
    fun key hnode => congrArg nodeValue hnode
  have hchoice : ∀ key offered (kept kept' : Option String), choice entries key offered = .ok kept →
      choice entries' key offered = .ok kept' → entries'.lookup key = entries.lookup key → kept' = kept := by
    intro key offered kept kept' hkept hkept' hnode
    unfold choice at hkept hkept'
    rw [hvalue key hnode, hkept] at hkept'
    exact (Except.ok.inj hkept').symm
  refine ⟨hchoice _ _ _ _ h.intent h'.intent, ?_, ?_, hchoice _ _ _ _ h.grain h'.grain,
    hchoice _ _ _ _ h.period h'.period, hchoice _ _ _ _ h.direction h'.direction, ?_⟩
  · intro hnode
    have hcomplexity := h'.complexity
    rw [hvalue _ hnode, h.complexity] at hcomplexity
    exact (Except.ok.inj hcomplexity).symm
  · intro hnode
    rw [← h.needsWrite, ← h'.needsWrite, hvalue _ hnode]
  · intro hnode
    rw [← h.dependsOnPrior, ← h'.dependsOnPrior, hvalue _ hnode]

/-- Answers are read whatever they are, but for a list or an object in place of a label or a level, and a number
that cannot be rounded in place of a level. -/
theorem parseAnswers_lawful_iff (lower : String → String) (str : JsonValue → String) (answers : JsonValue) :
    Lawful lower str answers ↔ Readable answers := by
  by_cases hobj : ∃ entries, answers = .obj entries
  · obtain ⟨entries, rfl⟩ := hobj
    constructor
    · rintro ⟨r, hparse, -⟩
      have h := parseAnswers_ok_iff.mp hparse
      have hlevel := normalizeOrdinal_ok_iff.mp ⟨_, h.complexity⟩
      refine ⟨?_, hlevel.2⟩
      intro key hkey
      simp only [List.mem_cons, List.not_mem_nil, or_false] at hkey
      obtain rfl | rfl | rfl | rfl | rfl := hkey
      · exact keep_ok_iff.mp ⟨_, h.intent⟩
      · exact hlevel.1
      · exact keep_ok_iff.mp ⟨_, h.grain⟩
      · exact keep_ok_iff.mp ⟨_, h.period⟩
      · exact keep_ok_iff.mp ⟨_, h.direction⟩
    · rintro ⟨hhashable, hround⟩
      have hchoice : ∀ key ∈ ["intent", "complexity", "grain", "period", "direction"], ∀ offered,
          ∃ kept, choice entries key offered = .ok kept := fun key hkey offered => keep_ok_iff.mpr (hhashable key hkey)
      obtain ⟨intent, hintent⟩ := hchoice "intent" (by simp) labels
      obtain ⟨grain, hgrain⟩ := hchoice "grain" (by simp) grainLabels
      obtain ⟨period, hperiod⟩ := hchoice "period" (by simp) periodLabels
      obtain ⟨direction, hdirection⟩ := hchoice "direction" (by simp) directionLabels
      obtain ⟨complexity, hcomplexity⟩ : ∃ kept, normalizeOrdinal lower complexityLevels (answerValue entries "complexity") =
          .ok kept := normalizeOrdinal_ok_iff.mpr ⟨hhashable "complexity" (by simp), hround⟩
      have h : Fields lower str entries
          { intent, complexity, needsWrite := normalizeBool lower str (answerValue entries "needs_write"), grain, period,
            direction, dependsOnPrior := normalizeBool lower str (answerValue entries "depends_on_prior") } :=
        ⟨hintent, hcomplexity, rfl, hgrain, hperiod, hdirection, rfl⟩
      refine ⟨_, parseAnswers_ok_iff.mpr h, h.offered, ?_⟩
      rintro entries' replaced r' ⟨rfl⟩ hparse
      exact h.same (parseAnswers_ok_iff.mp hparse)
  · have hparse : parseAnswers lower str answers = .ok {} := by
      cases answers with
      | obj entries => exact absurd ⟨entries, rfl⟩ hobj
      | _ => rfl
    have hreadable : Readable answers := by
      cases answers with
      | obj entries => exact absurd ⟨entries, rfl⟩ hobj
      | _ => trivial
    refine iff_of_true ⟨{}, hparse, ?_, fun entries _ _ h => absurd ⟨entries, h⟩ hobj⟩ hreadable
    constructor
    all_goals
      intro l hl
      cases hl

/-- The score of the complexity is `NaN`. -/
theorem parseAnswers_raises : ¬ ∃ (lower : String → String) (str : JsonValue → String),
    Lawful lower str (.obj [("complexity", .obj [("score", .float .nan)]), ("intent", .obj [("choice", .text "trend")])]) := by
  rintro ⟨lower, str, r, hparse, -⟩
  cases hparse

end SelericSwarm.Intent
