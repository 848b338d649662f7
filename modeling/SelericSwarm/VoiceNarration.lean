import Mathlib.Data.List.Forall2
import SelericSwarm.SpokenSummary

/-! One turn of the voice session: the run's event stream over connections that break anywhere, the lines
said while it goes on, and the answer once it has completed. -/
open List

namespace SelericSwarm.Voice

/-- A value out of `json.loads`; `φ` are the floats. -/
inductive Decoded (φ : Type) where
  | null
  | bool (b : Bool)
  | int (n : Int)
  | float (x : φ)
  | str (text : List Char)
  | arr (items : List (Decoded φ))
  | obj (fields : List (String × Decoded φ))

abbrev Fields (φ : Type) := List (String × Decoded φ)

/-- What `json.loads` does with a text; it raises something else than a `JSONDecodeError` at numbers
too long and values too deep. -/
inductive Loaded (φ : Type) where
  | malformed
  | raised
  | value (v : Decoded φ)

def completed : List Char := "run.completed".toList

def terminalEvents : List (List Char) := [completed, "run.failed".toList, "run.cancelled".toList]

def toolStarted : List Char := "agent.tool_started".toList

/-- `repr` is `str` of a value that is not a string, which never is the name of an event. -/
structure Python (φ : Type) where
  isZero : φ → Bool
  repr : Decoded φ → List Char
  repr_event : ∀ v, repr v ∉ toolStarted :: terminalEvents
  upper : List Char → List Char

def refusalLine : List Char :=
  "I wasn't able to complete that one, so I won't guess. Please try again in a moment, or check your thread for details.".toList

def idleLines : List (List Char) :=
  ["Still working on it.".toList, "This one needs a bit more digging.".toList, "Almost there, thanks for waiting.".toList]

def timeoutLine : List Char :=
  "That's taking longer than expected. I'll leave it running, so check your thread later.".toList

def errorLine : List Char := "Sorry, something went wrong on my side. Please try again.".toList

def answeringLine : List Char := "Putting the answer together.".toList

def placeholder : List Char := "Working…".toList

def stripText (text : List Char) : List Char := ((text.dropWhile isSpace).reverse.dropWhile isSpace).reverse

local instance lawfulText : LawfulBEq (List Char) := inferInstance

namespace Decoded
variable {φ : Type}

def truthy (py : Python φ) : Decoded φ → Bool
  | .null => false
  | .bool b => b
  | .int n => n ≠ 0
  | .float x => !py.isZero x
  | .str text => text ≠ []
  | .arr items => !items.isEmpty
  | .obj fields => !fields.isEmpty

/-- `str(value or "")`. -/
def text (py : Python φ) (value : Decoded φ) : List Char :=
  if value.truthy py then match value with
    | .str text => text
    | value => py.repr value
  else []

/-- The number, where `isinstance(value, int)`. -/
def int? : Decoded φ → Option Int
  | .int n => some n
  | .bool b => some (if b then 1 else 0)
  | _ => none

/-- `value == text`. -/
def is (text : List Char) : Decoded φ → Bool
  | .str s => s = text
  | _ => false

/-- `value in _TERMINAL_EVENTS`; a list or a dict cannot be looked up. -/
def terminal? : Decoded φ → Option Bool
  | .str text => some (text ∈ terminalEvents)
  | .arr _ | .obj _ => none
  | _ => some false

/-- What a `for` goes through; it raises at any other value. -/
def elements : Decoded φ → Option (List (Decoded φ))
  | .arr items => some items
  | .str text => some (text.map fun c => .str [c])
  | .obj fields => some (fields.map fun field => .str field.1.toList)
  | _ => none

end Decoded

/-- `fields.get(name, default)`. -/
def fieldD {φ : Type} (fields : Fields φ) (name : String) (default : Decoded φ) : Decoded φ :=
  ((fields.find? (·.1 = name)).map Prod.snd).getD default

def field {φ : Type} (fields : Fields φ) (name : String) : Decoded φ := fieldD fields name .null

def narrationLine (eventType summary : List Char) : Option (List Char) :=
  if eventType = "agent.answering".toList then some answeringLine
  else if eventType ≠ toolStarted then none
  else
    let label := ((((collapse summary).take 120).reverse).dropWhile (· ∈ [' ', '.', '…'])).reverse
    if label = [] then none else some (label ++ ['…'])

/-! `iter_run_events`. -/

/-- A line of `aiter_lines`, with the clock when it comes and when `_follow` has what it makes the generator yield. -/
structure Line (τ : Type) where
  text : List Char
  read : τ
  heard : τ

/-- How a stream comes to its end: `dropped` is an `HTTPError`, `failed` any other exception, and a `pending`
stream is all that has come so far. -/
inductive Closing where
  | ended
  | dropped
  | failed
  | pending
  deriving DecidableEq

/-- One round of the loop: the clock in its condition, and what the server makes of the request. A connection
that fails has no lines. -/
inductive Attempt (τ : Type) where
  | refused (asked : τ)
  | streamed (asked : τ) (lines : List (Line τ)) (closing : Closing)

inductive Yielded (φ : Type) where
  | tick
  | error
  | event (fields : Fields φ)

def Yielded.fields {φ : Type} : Yielded φ → Fields φ
  | .tick => [("type", .str "_tick".toList)]
  | .error => [("type", .str "_error".toList)]
  | .event fields => fields

/-- `over`: there is nothing more to read. -/
inductive Stop where
  | over
  | returned
  | raised
  deriving DecidableEq

structure Reading (φ τ : Type) where
  yields : List (Yielded φ × τ) := []
  cursor : Int
  stop : Stop

def Reading.after {φ τ : Type} (yielded : Yielded φ × τ) (r : Reading φ τ) : Reading φ τ :=
  { r with yields := yielded :: r.yields }

variable {φ τ : Type}

def advance (cursor : Int) (event : Fields φ) : Int := ((field event "sequence").int?).elim cursor (max cursor)

section
variable (loads : List Char → Loaded φ) [LE τ] [DecidableLE τ] (deadline : τ)

/-- The lines of one connection, behind the `dataLines` of the frame that has begun. -/
def readLines (cursor : Int) (dataLines : List (List Char)) : List (Line τ) → Reading φ τ
  | [] => { cursor, stop := .over }
  | line :: lines =>
    if deadline ≤ line.read then { cursor, stop := .returned }
    else if line.text.take 1 = [':'] then (readLines cursor dataLines lines).after (.tick, line.heard)
    else if line.text.take 5 = "data:".toList then
      readLines cursor (dataLines ++ [stripText (line.text.drop 5)]) lines
    else if line.text ≠ [] then readLines cursor dataLines lines
    else if dataLines.flatten = [] then readLines cursor [] lines
    else match loads dataLines.flatten with
      | .malformed => readLines cursor [] lines
      | .raised => { cursor, stop := .raised }
      | .value (.obj event) => match (field event "type").terminal? with
        | some true => { yields := [(.event event, line.heard)], cursor := advance cursor event, stop := .returned }
        | some false => (readLines (advance cursor event) [] lines).after (.event event, line.heard)
        | none => { yields := [(.event event, line.heard)], cursor := advance cursor event, stop := .raised }
      | .value _ => readLines cursor [] lines

variable [LT τ] [DecidableLT τ]

/-- `iter_run_events`; each attempt depends on the `after_sequence` it is asked with. -/
def iterRunEvents (cursor : Int) : List (Int → Attempt τ) → Reading φ τ
  | [] => { cursor, stop := .over }
  | attempt :: attempts => match attempt cursor with
    | .refused asked =>
      if asked < deadline then { yields := [(.error, asked)], cursor, stop := .returned }
      else { cursor, stop := .returned }
    | .streamed asked lines closing =>
      if asked < deadline then
        let r := readLines loads deadline cursor [] lines
        match r.stop, closing with
        | .over, .ended | .over, .dropped =>
          let rest := iterRunEvents r.cursor attempts
          { rest with yields := r.yields ++ rest.yields }
        | .over, .failed => { r with stop := .raised }
        | _, _ => r
      else { cursor, stop := .returned }

end

/-! `_follow`. -/

/-- The settings of the narration. -/
structure VoiceSettings (τ : Type) where
  missionTimeout : τ
  minGap : τ
  idleHold : τ
  narrationEnabled : Bool := true

/-- How the loop over the events ends. -/
inductive LoopEnd where
  | terminal (eventType : List Char)
  | errored
  | returned
  | raised
  | pending

structure Heard where
  said : List (List Char) := []
  ending : LoopEnd

def Heard.saying (line : List Char) (h : Heard) : Heard := { h with said := line :: h.said }

def Stop.ending : Stop → LoopEnd
  | .over => .pending
  | .returned => .returned
  | .raised => .raised

section
variable (py : Python φ)

section
variable [Sub τ] [LE τ] [DecidableLE τ] (settings : VoiceSettings τ) (stop : Stop)

def listen (lastSpoken : τ) (idleSpoken : Nat) : List (Yielded φ × τ) → Heard
  | [] => { ending := stop.ending }
  | (event, now) :: rest =>
    let eventType := (field event.fields "type").text py
    if eventType = "_error".toList then { ending := .errored }
    else if eventType ∈ terminalEvents then { ending := .terminal eventType }
    else if settings.narrationEnabled then
      match narrationLine eventType ((field event.fields "summary").text py), decide (settings.minGap ≤ now - lastSpoken) with
      | some line, true => (listen now idleSpoken rest).saying line
      | _, _ =>
        match (if eventType = "_tick".toList ∧ settings.idleHold ≤ now - lastSpoken then idleLines[idleSpoken]? else none) with
        | some line => (listen now (idleSpoken + 1) rest).saying line
        | none => listen lastSpoken idleSpoken rest
    else listen lastSpoken idleSpoken rest

end

/-! `_speak_answer`. -/

/-- The transcript as it is looked up: not a success, an exception, or the body of the answer. -/
inductive Lookup (φ : Type) where
  | refused
  | failed
  | answered (body : Decoded φ)

inductive Search where
  | found (content : List Char)
  | missing
  | raised

/-- The content of a part, and whether it may be spoken. -/
def content (part : Fields φ) : List Char := stripText ((field part "content").text py)

def isAnswer (part : Fields φ) : Bool :=
  py.upper ((field part "type").text py) = "TEXT".toList && content py part ≠ [] && content py part ≠ placeholder

def searchParts : List (Decoded φ) → Search
  | [] => .missing
  | .obj part :: parts => if isAnswer py part then .found (content py part) else searchParts parts
  | _ :: _ => .raised

def ofRun (runId : List Char) (msg : Fields φ) : Bool :=
  (field msg "role").is "ASSISTANT".toList && (field msg "run_id").is runId

def searchMessages (runId : List Char) : List (Decoded φ) → Search
  | [] => .missing
  | .obj msg :: msgs =>
    if ofRun runId msg then match (fieldD msg "parts" (.arr [])).elements with
      | none => .raised
      | some parts => match searchParts py parts with
        | .missing => searchMessages runId msgs
        | found => found
    else searchMessages runId msgs
  | _ :: _ => .raised

def messages? : Decoded φ → Option (List (Decoded φ))
  | .arr items => some items
  | .obj body => match fieldD body "items" (.arr []) with
    | .arr items => some items
    | _ => none
  | _ => none

/-- `_speak_answer` with so many attempts left; it waits where no lookup has come yet. -/
def speakAnswer (runId : List Char) : Nat → List (Lookup φ) → List (List Char)
  | 0, _ => [errorLine]
  | _ + 1, [] => []
  | n + 1, .refused :: lookups => speakAnswer runId n lookups
  | _ + 1, .failed :: _ => []
  | n + 1, .answered body :: lookups => match messages? body with
    | none => speakAnswer runId n lookups
    | some items => match searchMessages py runId items.reverse with
      | .found content => [formatSpokenSummary content]
      | .missing => speakAnswer runId n lookups
      | .raised => []

/-- What the server does during the turn. -/
structure TurnServer (φ τ : Type) where
  attempts : List (Int → Attempt τ)
  lookups : List (Lookup φ)

/-- What is said once the loop has ended. -/
def closingLines (runId : List Char) (lookups : List (Lookup φ)) : LoopEnd → List (List Char)
  | .terminal eventType =>
    if eventType = completed then speakAnswer py runId 3 lookups
    else if eventType = "run.failed".toList then [refusalLine]
    else []
  | .errored => [errorLine]
  | .returned => [timeoutLine]
  | .raised | .pending => []

section
variable (loads : List Char → Loaded φ) [Add τ] [Sub τ] [LE τ] [LT τ] [DecidableLE τ] [DecidableLT τ]
  (settings : VoiceSettings τ) (started : τ)

/-- What the generator of the turn has to yield; the loop stops at the end of the run. -/
def runEvents (server : TurnServer φ τ) : Reading φ τ :=
  iterRunEvents loads (started + settings.missionTimeout) 0 server.attempts

/-- The loop of `_follow`. -/
def narrated (server : TurnServer φ τ) : Heard :=
  listen py settings (runEvents loads settings started server).stop started 0
    (runEvents loads settings started server).yields

/-- All that `_follow` passes to `say`. -/
def follow (runId : List Char) (server : TurnServer φ τ) : List (List Char) :=
  (narrated py loads settings started server).said ++
    closingLines py runId server.lookups (narrated py loads settings started server).ending

end
end

/-! What is said while the run goes on. -/

section
variable (py : Python φ)

def Yielded.type (y : Yielded φ) : Decoded φ := field y.fields "type"

theorem text_tick : (Yielded.tick : Yielded φ).type.text py ∉ terminalEvents := by
  have htext : (Yielded.tick : Yielded φ).type.text py = "_tick".toList := rfl
  rw [htext]
  decide

theorem text_error : (Yielded.error : Yielded φ).type.text py ∉ terminalEvents := by
  have htext : (Yielded.error : Yielded φ).type.text py = "_error".toList := rfl
  rw [htext]
  decide

variable {py} in
/-- Only a string reads as the name of an event. -/
theorem Decoded.eq_str {v : Decoded φ} (h : v.text py ∈ toolStarted :: terminalEvents) : v = .str (v.text py) := by
  have hne : [] ∉ toolStarted :: terminalEvents := by decide
  cases hv : v.truthy py with
  | false => exact absurd (by simpa [Decoded.text, hv] using h) hne
  | true =>
    cases v with
    | str s => simp [Decoded.text, hv]
    | _ => exact absurd (by simpa [Decoded.text, hv] using h) (py.repr_event _)

/-- A line said while the run goes on. -/
def Progress (yields : List (Yielded φ × τ)) (line : List Char) : Prop :=
  line = answeringLine ∨ line ∈ idleLines ∨
    ∃ event, .event event ∈ yields.map Prod.fst ∧ field event "type" = .str toolStarted ∧
      narrationLine toolStarted ((field event "summary").text py) = some line

variable {py}

theorem Progress.cons {yields : List (Yielded φ × τ)} {line : List Char} (y : Yielded φ × τ)
    (h : Progress py yields line) : Progress py (y :: yields) line :=
  h.imp_right (Or.imp_right fun ⟨event, hmem, hline⟩ => ⟨event, mem_cons_of_mem _ hmem, hline⟩)

theorem narrationLine_cases {eventType summary line : List Char} (h : narrationLine eventType summary = some line) :
    line = answeringLine ∨ eventType = toolStarted := by
  rw [narrationLine] at h
  split at h
  · exact .inl (Option.some.inj h).symm
  · split at h
    · cases h
    · next htool => exact .inr (Decidable.not_not.mp htool)

theorem progress_narration {y : Yielded φ} {line : List Char} (t : τ) (rest : List (Yielded φ × τ))
    (h : narrationLine (y.type.text py) ((field y.fields "summary").text py) = some line) :
    Progress py ((y, t) :: rest) line := by
  obtain rfl | htool := narrationLine_cases h
  · exact .inl rfl
  · have htype : y.type = .str toolStarted := by
      have hmem : y.type.text py ∈ toolStarted :: terminalEvents := mem_cons.mpr (.inl htool)
      have hstr := Decoded.eq_str hmem
      rwa [htool] at hstr
    cases y with
    | tick => exact absurd (Decoded.str.inj htype) (by decide)
    | error => exact absurd (Decoded.str.inj htype) (by decide)
    | event event => exact .inr (.inr ⟨event, mem_cons_self, htype, htool ▸ h⟩)

section
variable [Sub τ] [LE τ] [DecidableLE τ] {settings : VoiceSettings τ} {stop : Stop}

theorem listen_progress (yields : List (Yielded φ × τ)) : ∀ (lastSpoken : τ) (idleSpoken : Nat),
    ∀ line ∈ (listen py settings stop lastSpoken idleSpoken yields).said, Progress py yields line := by
  induction yields with
  | nil => exact fun _ _ line h => absurd h not_mem_nil
  | cons y rest ih =>
    obtain ⟨y, now⟩ := y
    have hkeep : ∀ lastSpoken idleSpoken, ∀ line ∈ (listen py settings stop lastSpoken idleSpoken rest).said,
        Progress py ((y, now) :: rest) line := fun a b line h => (ih a b line h).cons _
    have hsay : ∀ {said} lastSpoken idleSpoken, Progress py ((y, now) :: rest) said →
        ∀ line ∈ ((listen py settings stop lastSpoken idleSpoken rest).saying said).said,
          Progress py ((y, now) :: rest) line := fun a b hsaid line h =>
      (mem_cons.mp h).elim (fun heq => heq ▸ hsaid) (hkeep a b line)
    intro lastSpoken idleSpoken
    simp only [listen]
    split
    · exact fun line h => absurd h not_mem_nil
    split
    · exact fun line h => absurd h not_mem_nil
    split
    · split
      · next hline _ => exact hsay _ _ (progress_narration now rest hline)
      · split
        · next hidle =>
          split at hidle
          · exact hsay _ _ (.inr (.inl (mem_of_getElem? hidle)))
          · cases hidle
        · exact hkeep _ _
    · exact hkeep _ _

theorem listen_terminal (yields : List (Yielded φ × τ)) : ∀ (lastSpoken : τ) (idleSpoken : Nat) {name : List Char},
    (listen py settings stop lastSpoken idleSpoken yields).ending = .terminal name →
      ∃ event, .event event ∈ yields.map Prod.fst ∧ field event "type" = .str name := by
  induction yields with
  | nil =>
    intro _ _ name h
    cases stop <;> cases h
  | cons y rest ih =>
    obtain ⟨y, now⟩ := y
    have hkeep : ∀ lastSpoken idleSpoken {name},
        (listen py settings stop lastSpoken idleSpoken rest).ending = .terminal name →
          ∃ event, .event event ∈ ((y, now) :: rest).map Prod.fst ∧ field event "type" = .str name := fun a b _ h =>
      let ⟨event, hmem, hname⟩ := ih a b h
      ⟨event, mem_cons_of_mem _ hmem, hname⟩
    intro lastSpoken idleSpoken name
    simp only [listen]
    split
    · exact nofun
    split
    · next hterminal =>
      rintro ⟨⟩
      have htype : y.type = .str (y.type.text py) := Decoded.eq_str (mem_cons_of_mem _ hterminal)
      cases y with
      | tick => exact absurd hterminal (text_tick py)
      | error => exact absurd hterminal (text_error py)
      | event event => exact ⟨event, mem_cons_self, htype⟩
    split
    · split
      · exact hkeep _ _
      · split
        · exact hkeep _ _
        · exact hkeep _ _
    · exact hkeep _ _

end

/-! The answer. -/

/-- The content of a text part of the run's own message, in one of the transcripts looked up. -/
def IsAnswer (py : Python φ) (runId : List Char) (lookups : List (Lookup φ)) (text : List Char) : Prop :=
  ∃ body items msg parts part, .answered body ∈ lookups ∧ messages? body = some items ∧ .obj msg ∈ items ∧
    field msg "role" = .str "ASSISTANT".toList ∧ field msg "run_id" = .str runId ∧
    (fieldD msg "parts" (.arr [])).elements = some parts ∧ .obj part ∈ parts ∧
    py.upper ((field part "type").text py) = "TEXT".toList ∧ content py part = text ∧ text ≠ []

variable {text : List Char}

theorem Decoded.eq_of_is {v : Decoded φ} (h : v.is text = true) : v = .str text := by
  cases v with
  | str s => rw [of_decide_eq_true h]
  | _ => cases h

theorem searchParts_found {parts : List (Decoded φ)} (h : searchParts py parts = .found text) :
    ∃ part, .obj part ∈ parts ∧ isAnswer py part = true ∧ content py part = text := by
  induction parts with
  | nil => cases h
  | cons part parts ih =>
    cases part with
    | obj part =>
      rw [searchParts] at h
      split at h
      · next hanswer =>
        cases h
        exact ⟨part, mem_cons_self, hanswer, rfl⟩
      · obtain ⟨found, hmem, hfound⟩ := ih h
        exact ⟨found, mem_cons_of_mem _ hmem, hfound⟩
    | _ => cases h

theorem searchMessages_found {runId : List Char} {msgs : List (Decoded φ)}
    (h : searchMessages py runId msgs = .found text) :
    ∃ msg parts, .obj msg ∈ msgs ∧ ofRun runId msg = true ∧ (fieldD msg "parts" (.arr [])).elements = some parts ∧
      searchParts py parts = .found text := by
  induction msgs with
  | nil => cases h
  | cons msg msgs ih =>
    have hlater : searchMessages py runId msgs = .found text → ∃ m parts, .obj m ∈ msg :: msgs ∧ ofRun runId m = true ∧
        (fieldD m "parts" (.arr [])).elements = some parts ∧ searchParts py parts = .found text := fun h =>
      let ⟨m, parts, hmem, hm⟩ := ih h
      ⟨m, parts, mem_cons_of_mem _ hmem, hm⟩
    cases msg with
    | obj msg =>
      rw [searchMessages] at h
      split at h
      · next hrun =>
        split at h
        · cases h
        · next parts hparts =>
          split at h
          · exact hlater h
          · exact ⟨msg, parts, mem_cons_self, hrun, hparts, h⟩
      · exact hlater h
    | _ => cases h

theorem IsAnswer.later {runId : List Char} {lookups : List (Lookup φ)} (l : Lookup φ)
    (h : IsAnswer py runId lookups text) : IsAnswer py runId (l :: lookups) text :=
  let ⟨body, items, msg, parts, part, hbody, hrest⟩ := h
  ⟨body, items, msg, parts, part, mem_cons_of_mem _ hbody, hrest⟩

theorem isAnswer_of_found {runId : List Char} {lookups : List (Lookup φ)} {body : Decoded φ}
    {items : List (Decoded φ)} (hitems : messages? body = some items)
    (h : searchMessages py runId items.reverse = .found text) : IsAnswer py runId (.answered body :: lookups) text := by
  obtain ⟨msg, parts, hmsg, hrun, hparts, hfound⟩ := searchMessages_found h
  obtain ⟨part, hpart, hanswer, rfl⟩ := searchParts_found hfound
  simp only [ofRun, Bool.and_eq_true] at hrun
  simp only [isAnswer, Bool.and_eq_true, decide_eq_true_eq] at hanswer
  exact ⟨body, items, msg, parts, part, mem_cons_self, hitems, mem_reverse.mp hmsg,
    Decoded.eq_of_is hrun.1, Decoded.eq_of_is hrun.2, hparts, hpart, hanswer.1.1, rfl, hanswer.1.2⟩

theorem speakAnswer_cases (py : Python φ) (runId : List Char) (n : Nat) : ∀ lookups : List (Lookup φ),
    speakAnswer py runId n lookups = [] ∨ speakAnswer py runId n lookups = [errorLine] ∨
      ∃ text, IsAnswer py runId lookups text ∧ speakAnswer py runId n lookups = [formatSpokenSummary text] := by
  induction n with
  | zero => exact fun _ => .inr (.inl rfl)
  | succ n ih =>
    intro lookups
    cases lookups with
    | nil => exact .inl rfl
    | cons l lookups =>
      have hlater : speakAnswer py runId n lookups = [] ∨ speakAnswer py runId n lookups = [errorLine] ∨
          ∃ text, IsAnswer py runId (l :: lookups) text ∧
            speakAnswer py runId n lookups = [formatSpokenSummary text] :=
        (ih lookups).imp_right (Or.imp_right fun ⟨text, htext, hsaid⟩ => ⟨text, htext.later l, hsaid⟩)
      cases l with
      | refused => exact hlater
      | failed => exact .inl rfl
      | answered body =>
        rw [speakAnswer]
        split
        · exact hlater
        · next items hitems =>
          split
          · next text hfound => exact .inr (.inr ⟨text, isAnswer_of_found hitems hfound, rfl⟩)
          · exact hlater
          · exact .inl rfl

/-- The lines that do not depend on the run. -/
def fixedLines : List (List Char) := [refusalLine, timeoutLine, errorLine]

theorem closingLines_cases (py : Python φ) (runId : List Char) (lookups : List (Lookup φ)) (ending : LoopEnd) :
    closingLines py runId lookups ending = [] ∨ (∃ line ∈ fixedLines, closingLines py runId lookups ending = [line]) ∨
      ending = .terminal completed ∧
        ∃ text, IsAnswer py runId lookups text ∧ closingLines py runId lookups ending = [formatSpokenSummary text] := by
  cases ending with
  | terminal name =>
    rw [closingLines]
    split
    · next hname =>
      subst hname
      obtain hnone | herror | hanswer := speakAnswer_cases py runId 3 lookups
      · exact .inl hnone
      · exact .inr (.inl ⟨errorLine, by simp [fixedLines], herror⟩)
      · exact .inr (.inr ⟨rfl, hanswer⟩)
    · split
      · exact .inr (.inl ⟨refusalLine, by simp [fixedLines], rfl⟩)
      · exact .inl rfl
  | errored => exact .inr (.inl ⟨errorLine, by simp [fixedLines], rfl⟩)
  | returned => exact .inr (.inl ⟨timeoutLine, by simp [fixedLines], rfl⟩)
  | raised => exact .inl rfl
  | pending => exact .inl rfl

end

/-! The generator stops at the first terminal event. -/

/-- An event that ends the run. -/
def Terminal (y : Yielded φ × τ) : Prop := y.1.type.terminal? = some true

/-- Nothing comes after a terminal event, and none has come while the reading may go on. -/
structure Stopped (r : Reading φ τ) : Prop where
  last : r.yields.Pairwise fun earlier _ => ¬Terminal earlier
  going : r.stop = .over → ∀ y ∈ r.yields, ¬Terminal y

theorem Stopped.silent (cursor : Int) (stop : Stop) : Stopped ({ cursor, stop } : Reading φ τ) :=
  ⟨.nil, fun _ _ h => absurd h not_mem_nil⟩

variable {r : Reading φ τ} {cursor : Int}

theorem Stopped.after {y : Yielded φ × τ} (hy : ¬Terminal y) (h : Stopped r) : Stopped (r.after y) where
  last := pairwise_cons.mpr ⟨fun _ _ => hy, h.last⟩
  going hover z hz := (mem_cons.mp hz).elim (fun heq => heq ▸ hy) (h.going hover z)

theorem not_terminal_tick (t : τ) : ¬Terminal ((.tick, t) : Yielded φ × τ) := by
  have hname : "_tick".toList ∉ terminalEvents := by decide
  exact fun h => hname (of_decide_eq_true (Option.some.inj h))

section
variable {loads : List Char → Loaded φ} [LE τ] [DecidableLE τ] {deadline : τ}

theorem readLines_stopped (lines : List (Line τ)) : ∀ (cursor : Int) (dataLines : List (List Char)),
    Stopped (readLines loads deadline cursor dataLines lines) := by
  induction lines with
  | nil => exact fun cursor _ => .silent cursor .over
  | cons line lines ih =>
    intro cursor dataLines
    rw [readLines]
    split
    · exact .silent cursor .returned
    split
    · exact (ih cursor dataLines).after (not_terminal_tick line.heard)
    split
    · exact ih cursor _
    split
    · exact ih cursor dataLines
    split
    · exact ih cursor []
    split
    · exact ih cursor []
    · exact .silent cursor .raised
    · next event hevent =>
      split
      · exact ⟨pairwise_singleton _ _, nofun⟩
      · next hother => exact (ih _ []).after (by simp [Terminal, Yielded.type, Yielded.fields, hother])
      · exact ⟨pairwise_singleton _ _, nofun⟩
    · exact ih cursor []

variable [LT τ] [DecidableLT τ]

theorem iterRunEvents_stopped (attempts : List (Int → Attempt τ)) : ∀ cursor : Int,
    Stopped (iterRunEvents loads deadline cursor attempts) := by
  induction attempts with
  | nil => exact fun cursor => .silent cursor .over
  | cons attempt attempts ih =>
    intro cursor
    rw [iterRunEvents]
    split
    · split
      · exact ⟨pairwise_singleton _ _, nofun⟩
      · exact .silent cursor .returned
    · next asked lines closing hattempt =>
      have hread : Stopped (readLines loads deadline cursor [] lines) := readLines_stopped lines cursor []
      have hon : ∀ r' : Reading φ τ, Stopped r' → (readLines loads deadline cursor [] lines).stop = .over →
          Stopped { r' with yields := (readLines loads deadline cursor [] lines).yields ++ r'.yields } :=
        fun r' h hover =>
          { last := pairwise_append.mpr ⟨hread.last, h.last, fun y hy _ _ => hread.going hover y hy⟩
            going := fun hr' y hy => (mem_append.mp hy).elim (hread.going hover y) (h.going hr' y) }
      split
      · dsimp only
        split
        · next hover => exact hon _ (ih _) hover
        · next hover => exact hon _ (ih _) hover
        · exact ⟨hread.last, nofun⟩
        · exact hread
      · exact .silent cursor .returned

end

/-! Payloads. -/

def readFields : List String := ["type", "summary", "sequence"]

def SameFields (e f : Fields φ) : Prop := ∀ name ∈ readFields, field e name = field f name

/-- Two readings of one text, that agree on whether it is an event and on the fields that the turn reads. -/
inductive Alike : Loaded φ → Loaded φ → Prop where
  | same (l : Loaded φ) : Alike l l
  | event (e f : Fields φ) (h : SameFields e f) : Alike (.value (.obj e)) (.value (.obj f))

def SameYield (a b : Yielded φ × τ) : Prop := SameFields a.1.fields b.1.fields ∧ a.2 = b.2

theorem SameFields.refl (e : Fields φ) : SameFields e e := fun _ _ => rfl

theorem SameFields.type {e f : Fields φ} (h : SameFields e f) : field e "type" = field f "type" :=
  h "type" (by decide)

theorem SameFields.summary {e f : Fields φ} (h : SameFields e f) : field e "summary" = field f "summary" :=
  h "summary" (by decide)

theorem SameFields.advance {e f : Fields φ} (h : SameFields e f) (cursor : Int) : advance cursor e = advance cursor f := by
  rw [Voice.advance, Voice.advance, h "sequence" (by decide)]

structure SameReading (r r' : Reading φ τ) : Prop where
  yields : List.Forall₂ SameYield r.yields r'.yields
  cursor : r.cursor = r'.cursor
  stop : r.stop = r'.stop

theorem SameReading.silent (cursor : Int) (stop : Stop) :
    SameReading ({ cursor, stop } : Reading φ τ) { cursor, stop } := ⟨.nil, rfl, rfl⟩

theorem SameReading.after {a b : Yielded φ × τ} {r' : Reading φ τ} (hy : SameYield a b) (h : SameReading r r') :
    SameReading (r.after a) (r'.after b) := ⟨.cons hy h.yields, h.cursor, h.stop⟩

section
variable {loads loads' : List Char → Loaded φ} (h : ∀ text, Alike (loads text) (loads' text))
include h

section
variable [LE τ] [DecidableLE τ] {deadline : τ}

theorem readLines_same (lines : List (Line τ)) : ∀ (cursor : Int) (dataLines : List (List Char)),
    SameReading (readLines loads deadline cursor dataLines lines) (readLines loads' deadline cursor dataLines lines) := by
  induction lines with
  | nil => exact fun cursor _ => .silent cursor .over
  | cons line lines ih =>
    intro cursor dataLines
    have hevent : ∀ {e f : Fields φ}, SameFields e f → SameYield (.event e, line.heard) (.event f, line.heard) :=
      fun hf => ⟨hf, rfl⟩
    rw [readLines, readLines]
    split
    · exact .silent cursor .returned
    split
    · exact (ih cursor dataLines).after ⟨.refl _, rfl⟩
    split
    · exact ih cursor _
    split
    · exact ih cursor dataLines
    split
    · exact ih cursor []
    · have halike := h dataLines.flatten
      generalize loads dataLines.flatten = l at halike
      generalize loads' dataLines.flatten = l' at halike
      cases halike with
      | same l =>
        split
        · exact ih cursor []
        · exact .silent cursor .raised
        · next event _ =>
          split
          · exact ⟨.cons (hevent (.refl _)) .nil, rfl, rfl⟩
          · exact (ih _ []).after (hevent (.refl _))
          · exact ⟨.cons (hevent (.refl _)) .nil, rfl, rfl⟩
        · exact ih cursor []
      | event e f hf =>
        dsimp only
        rw [hf.type, hf.advance]
        split
        · exact ⟨.cons (hevent hf) .nil, rfl, rfl⟩
        · exact (ih _ []).after (hevent hf)
        · exact ⟨.cons (hevent hf) .nil, rfl, rfl⟩

variable [LT τ] [DecidableLT τ]

theorem iterRunEvents_same (attempts : List (Int → Attempt τ)) : ∀ cursor : Int,
    SameReading (iterRunEvents loads deadline cursor attempts) (iterRunEvents loads' deadline cursor attempts) := by
  induction attempts with
  | nil => exact fun cursor => .silent cursor .over
  | cons attempt attempts ih =>
    intro cursor
    rw [iterRunEvents, iterRunEvents]
    split
    · split
      · exact ⟨.cons ⟨.refl _, rfl⟩ .nil, rfl, rfl⟩
      · exact .silent cursor .returned
    · next asked lines closing hattempt =>
      have hread : SameReading (readLines loads deadline cursor [] lines) (readLines loads' deadline cursor [] lines) :=
        readLines_same h lines cursor []
      split
      · dsimp only
        rw [hread.stop, hread.cursor]
        split
        · exact ⟨rel_append hread.yields (ih _).yields, (ih _).cursor, (ih _).stop⟩
        · exact ⟨rel_append hread.yields (ih _).yields, (ih _).cursor, (ih _).stop⟩
        · exact ⟨hread.yields, rfl, rfl⟩
        · exact hread
      · exact .silent cursor .returned

end

omit h in
theorem listen_same {py : Python φ} [Sub τ] [LE τ] [DecidableLE τ] {settings : VoiceSettings τ} {stop : Stop}
    {yields yields' : List (Yielded φ × τ)} (hyields : List.Forall₂ SameYield yields yields') :
    ∀ (lastSpoken : τ) (idleSpoken : Nat), listen py settings stop lastSpoken idleSpoken yields =
      listen py settings stop lastSpoken idleSpoken yields' := by
  induction hyields with
  | nil => exact fun _ _ => rfl
  | @cons y y' rest rest' hy _ ih =>
    intro lastSpoken idleSpoken
    obtain ⟨y, now⟩ := y
    obtain ⟨y', now'⟩ := y'
    obtain ⟨hfields, rfl⟩ : SameFields y.fields y'.fields ∧ now = now' := hy
    simp only [listen, hfields.type, hfields.summary, ih]

theorem follow_same (py : Python φ) [Add τ] [Sub τ] [LE τ] [LT τ] [DecidableLE τ] [DecidableLT τ]
    (settings : VoiceSettings τ) (started : τ) (runId : List Char) (server : TurnServer φ τ) :
    follow py loads settings started runId server = follow py loads' settings started runId server := by
  have hread : SameReading (runEvents loads settings started server) (runEvents loads' settings started server) :=
    iterRunEvents_same h server.attempts 0
  have hheard : narrated py loads settings started server = narrated py loads' settings started server := by
    rw [narrated, narrated, hread.stop]
    exact listen_same hread.yields started 0
  rw [follow, follow, hheard]

end

/-! Streams that honour `after_sequence`. -/

structure LogEvent (φ : Type) where
  sequence : Nat
  eventType : List Char
  fields : Fields φ
  sequence_field : field fields "sequence" = .int sequence
  type_field : field fields "type" = .str eventType

/-- The events of a run, and how the server writes them. -/
structure RunLog (loads : List Char → Loaded φ) where
  events : List (LogEvent φ)
  positive : ∀ e ∈ events, 0 < e.sequence
  increasing : events.Pairwise fun e f => e.sequence < f.sequence
  dumps : Fields φ → List Char
  loads_dumps : ∀ e ∈ events, loads (dumps e.fields) = .value (.obj e.fields)
  braces : ∀ e ∈ events, ∃ inner, dumps e.fields = '{' :: (inner ++ ['}'])

def RunLog.lines {loads : List Char → Loaded φ} (log : RunLog loads) : Option (LogEvent φ) → List (List Char)
  | none => [": heartbeat".toList, []]
  | some e =>
    ["id: ".toList ++ Nat.toDigits 10 e.sequence, "event: ".toList ++ e.eventType,
      "data: ".toList ++ log.dumps e.fields, []]

/-- What is read of `whole` where it is cut: some of its lines, and perhaps a line that has not come in full. -/
def CutOff (whole lines : List (List Char)) : Prop :=
  ∃ front tail, lines = front ++ tail ∧ front <+: whole ∧ tail.length ≤ 1 ∧ [] ∉ tail

/-- Each stream sends the events of the log behind the cursor, in order, and heartbeats, until it is cut. -/
def Honours {loads : List Char → Loaded φ} (log : RunLog loads) (attempt : Int → Attempt τ) : Prop :=
  ∀ cursor asked lines closing, attempt cursor = .streamed asked lines closing →
    ∃ items : List (Option (LogEvent φ)), items.reduceOption <+: log.events.filter (cursor < ·.sequence) ∧
      CutOff (items.flatMap log.lines) (lines.map Line.text)

def Yielded.event? : Yielded φ → Option (Fields φ)
  | .event fields => some fields
  | _ => none

/-- The events out of frames. -/
def logged (yields : List (Yielded φ × τ)) : List (Fields φ) := yields.filterMap (·.1.event?)

def lastSeen (cursor : Int) (read : List (LogEvent φ)) : Int := read.foldl (fun c e => max c e.sequence) cursor

/-- What has been yielded is the front of the events that were to come. -/
def Delivers (cursor : Int) (events : List (LogEvent φ)) (r : Reading φ τ) : Prop :=
  ∃ read, read <+: events ∧ logged r.yields = read.map LogEvent.fields ∧ r.cursor = lastSeen cursor read

theorem cutOff_nil {lines : List (List Char)} (h : CutOff [] lines) : lines.length ≤ 1 ∧ [] ∉ lines := by
  obtain ⟨front, tail, rfl, hfront, hlength, hblank⟩ := h
  obtain rfl := prefix_nil.mp hfront
  exact ⟨hlength, hblank⟩

theorem CutOff.cases {line : List Char} {whole lines : List (List Char)} (h : CutOff (line :: whole) lines) :
    lines.length ≤ 1 ∧ [] ∉ lines ∨ ∃ rest, lines = line :: rest ∧ CutOff whole rest := by
  obtain ⟨front, tail, rfl, hfront, hlength, hblank⟩ := h
  cases front with
  | nil => exact .inl ⟨hlength, hblank⟩
  | cons l front =>
    obtain ⟨rfl, hrest⟩ := cons_prefix_cons.mp hfront
    exact .inr ⟨front ++ tail, rfl, front, tail, rfl, hrest, hlength, hblank⟩

theorem Delivers.none (events : List (LogEvent φ)) (hlogged : logged r.yields = []) (hcursor : r.cursor = cursor) :
    Delivers cursor events r := ⟨[], nil_prefix, hlogged, hcursor⟩

theorem Delivers.silent (cursor : Int) (events : List (LogEvent φ)) (stop : Stop) :
    Delivers cursor events ({ cursor, stop } : Reading φ τ) := .none events rfl rfl

theorem Delivers.tick {events : List (LogEvent φ)} (t : τ) (h : Delivers cursor events r) :
    Delivers cursor events (r.after (.tick, t)) := h

theorem advance_log (cursor : Int) (e : LogEvent φ) : advance cursor e.fields = max cursor e.sequence := by
  rw [advance, e.sequence_field]
  rfl

theorem stripText_braces (inner : List Char) : stripText (' ' :: '{' :: (inner ++ ['}'])) = '{' :: (inner ++ ['}']) := by
  have hspace : isSpace ' ' = true := by decide
  have hopen : isSpace '{' = false := by decide
  have hclose : isSpace '}' = false := by decide
  simp [stripText, List.dropWhile, hspace, hopen, hclose]

section
variable {loads : List Char → Loaded φ} [LE τ] [DecidableLE τ] {deadline : τ} {log : RunLog loads} {cursor : Int}
  {events : List (LogEvent φ)} {dataLines : List (List Char)} {line : Line τ} {lines : List (Line τ)}

theorem delivers_unfinished (h : (lines.map Line.text).length ≤ 1 ∧ [] ∉ lines.map Line.text) :
    Delivers cursor events (readLines loads deadline cursor dataLines lines) := by
  obtain ⟨hlength, hblank⟩ := h
  cases lines with
  | nil => exact .silent cursor events .over
  | cons line lines =>
    obtain rfl : lines = [] := eq_nil_of_length_eq_zero (by simpa using hlength)
    have htext : line.text ≠ [] := fun h => hblank (by simp [h])
    rw [readLines]
    split
    · exact .silent cursor events .returned
    split
    · exact .none events rfl rfl
    split
    · exact .silent cursor events .over
    · exact .silent cursor events .over

theorem delivers_comment (htext : line.text = ": heartbeat".toList)
    (h : Delivers cursor events (readLines loads deadline cursor dataLines lines)) :
    Delivers cursor events (readLines loads deadline cursor dataLines (line :: lines)) := by
  rw [readLines, htext]
  split
  · exact .silent cursor events .returned
  · rw [if_pos (by decide)]
    exact h.tick line.heard

/-- The lines `id:` and `event:`. -/
theorem delivers_other {c : Char} {text : List Char} (htext : line.text = c :: text) (hcolon : c ≠ ':') (hdata : c ≠ 'd')
    (h : Delivers cursor events (readLines loads deadline cursor dataLines lines)) :
    Delivers cursor events (readLines loads deadline cursor dataLines (line :: lines)) := by
  have hfirst : "data:".toList = ['d', 'a', 't', 'a', ':'] := by decide
  rw [readLines, htext, hfirst]
  split
  · exact .silent cursor events .returned
  · rw [if_neg (by simp [hcolon]), if_neg (by simp [hdata]), if_pos (cons_ne_nil c text)]
    exact h

theorem delivers_data {inner : List Char} (htext : line.text = "data: ".toList ++ '{' :: (inner ++ ['}']))
    (h : Delivers cursor events
      (readLines loads deadline cursor (dataLines ++ ['{' :: (inner ++ ['}'])]) lines)) :
    Delivers cursor events (readLines loads deadline cursor dataLines (line :: lines)) := by
  have hfirst : "data:".toList = ['d', 'a', 't', 'a', ':'] := by decide
  have hspace : "data: ".toList = ['d', 'a', 't', 'a', ':', ' '] := by decide
  rw [readLines, htext, hfirst, hspace]
  split
  · exact .silent cursor events .returned
  · rw [if_neg (by simp), if_pos (by simp)]
    rw [← stripText_braces] at h
    exact h

theorem delivers_blank (htext : line.text = [])
    (h : Delivers cursor events (readLines loads deadline cursor [] lines)) :
    Delivers cursor events (readLines loads deadline cursor [] (line :: lines)) := by
  rw [readLines, htext]
  split
  · exact .silent cursor events .returned
  · rw [if_neg (by decide), if_neg (by decide), if_neg (by decide), if_pos flatten_nil]
    exact h

theorem delivers_event {e : LogEvent φ} (he : e ∈ log.events) (htext : line.text = [])
    (h : Delivers (max cursor e.sequence) events (readLines loads deadline (max cursor e.sequence) [] lines)) :
    Delivers cursor (e :: events) (readLines loads deadline cursor [log.dumps e.fields] (line :: lines)) := by
  have hlast : Delivers cursor (e :: events)
      (Reading.after (.event e.fields, line.heard) { cursor := max cursor e.sequence, stop := .returned }) :=
    ⟨[e], prefix_append [e] events, rfl, rfl⟩
  have hdata : [log.dumps e.fields].flatten ≠ [] := by
    obtain ⟨inner, hinner⟩ := log.braces e he
    simp [hinner]
  rw [readLines, htext]
  split
  · exact .silent cursor _ .returned
  · rw [if_neg (by decide), if_neg (by decide), if_neg (by decide), flatten_singleton,
      log.loads_dumps e he]
    dsimp only
    rw [advance_log, e.type_field]
    dsimp only [Decoded.terminal?]
    cases decide (e.eventType ∈ terminalEvents) with
    | true => exact hlast
    | false =>
      obtain ⟨read, hprefix, hlogged, hcursor⟩ := h
      exact ⟨e :: read, cons_prefix_cons.mpr ⟨rfl, hprefix⟩, congrArg (e.fields :: ·) hlogged, hcursor⟩

/-- One connection. -/
theorem delivers_lines : ∀ {items : List (Option (LogEvent φ))} {lines : List (Line τ)} {cursor : Int},
    (∀ e ∈ items.reduceOption, e ∈ log.events) → CutOff (items.flatMap log.lines) (lines.map Line.text) →
      Delivers cursor items.reduceOption (readLines loads deadline cursor [] lines) := by
  intro items
  induction items with
  | nil => exact fun _ hcut => delivers_unfinished (cutOff_nil hcut)
  | cons item items ih =>
    intro lines cursor hmem hcut
    cases item with
    | none =>
      rw [flatMap_cons, RunLog.lines] at hcut
      obtain hend | ⟨_, htexts, hcut⟩ := hcut.cases
      · exact delivers_unfinished hend
      obtain ⟨comment, lines, rfl, hcomment, rfl⟩ := map_eq_cons_iff.mp htexts
      refine delivers_comment hcomment ?_
      obtain hend | ⟨_, htexts, hcut⟩ := hcut.cases
      · exact delivers_unfinished hend
      obtain ⟨blank, lines, rfl, hblank, rfl⟩ := map_eq_cons_iff.mp htexts
      exact delivers_blank hblank (ih hmem hcut)
    | some e =>
      have he : e ∈ log.events := hmem e mem_cons_self
      obtain ⟨inner, hinner⟩ := log.braces e he
      have hid : "id: ".toList = ['i', 'd', ':', ' '] := by decide
      have hevent : "event: ".toList = ['e', 'v', 'e', 'n', 't', ':', ' '] := by decide
      rw [flatMap_cons, RunLog.lines] at hcut
      obtain hend | ⟨_, htexts, hcut⟩ := hcut.cases
      · exact delivers_unfinished hend
      obtain ⟨id, lines, rfl, hidText, rfl⟩ := map_eq_cons_iff.mp htexts
      rw [hid] at hidText
      refine delivers_other hidText (by decide) (by decide) ?_
      obtain hend | ⟨_, htexts, hcut⟩ := hcut.cases
      · exact delivers_unfinished hend
      obtain ⟨type, lines, rfl, htype, rfl⟩ := map_eq_cons_iff.mp htexts
      rw [hevent] at htype
      refine delivers_other htype (by decide) (by decide) ?_
      obtain hend | ⟨_, htexts, hcut⟩ := hcut.cases
      · exact delivers_unfinished hend
      obtain ⟨data, lines, rfl, hdata, rfl⟩ := map_eq_cons_iff.mp htexts
      rw [hinner] at hdata
      refine delivers_data hdata ?_
      obtain hend | ⟨_, htexts, hcut⟩ := hcut.cases
      · exact delivers_unfinished hend
      obtain ⟨blank, lines, rfl, hblank, rfl⟩ := map_eq_cons_iff.mp htexts
      rw [← hinner]
      exact delivers_event he hblank (ih (fun f hf => hmem f (mem_cons_of_mem e hf)) hcut)

end

theorem le_lastSeen (read : List (LogEvent φ)) : ∀ cursor : Int,
    cursor ≤ lastSeen cursor read ∧ ∀ e ∈ read, (e.sequence : Int) ≤ lastSeen cursor read := by
  induction read with
  | nil => exact fun _ => ⟨Int.le_refl _, fun e h => absurd h not_mem_nil⟩
  | cons e read ih =>
    intro cursor
    obtain ⟨hcursor, hread⟩ := ih (max cursor e.sequence)
    refine ⟨Int.le_trans (Int.le_max_left _ _) hcursor, fun f hf => ?_⟩
    obtain rfl | hf := mem_cons.mp hf
    · exact Int.le_trans (Int.le_max_right _ _) hcursor
    · exact hread f hf

theorem lastSeen_lt {n : Int} (read : List (LogEvent φ)) : ∀ {cursor : Int}, cursor < n →
    (∀ e ∈ read, (e.sequence : Int) < n) → lastSeen cursor read < n := by
  induction read with
  | nil => exact fun hcursor _ => hcursor
  | cons e read ih =>
    intro cursor hcursor hread
    exact ih (Int.max_lt.mpr ⟨hcursor, hread e mem_cons_self⟩) fun f hf => hread f (mem_cons_of_mem e hf)

/-- The cursor stands between the events that have been read and those to come. -/
structure Between (log : List (LogEvent φ)) (cursor : Int) (done todo : List (LogEvent φ)) : Prop where
  whole : log = done ++ todo
  done : ∀ e ∈ done, (e.sequence : Int) ≤ cursor
  todo : ∀ e ∈ todo, cursor < e.sequence

theorem Between.filter {log done todo : List (LogEvent φ)} (h : Between log cursor done todo) :
    log.filter (cursor < ·.sequence) = todo := by
  have hdone : done.filter (cursor < ·.sequence) = [] :=
    filter_eq_nil_iff.mpr fun e he => by simpa using h.done e he
  have htodo : todo.filter (cursor < ·.sequence) = todo :=
    filter_eq_self.mpr fun e he => decide_eq_true (h.todo e he)
  rw [h.whole, filter_append, hdone, htodo, nil_append]

theorem Between.read {log done read todo : List (LogEvent φ)}
    (hlog : log.Pairwise fun e f => e.sequence < f.sequence) (h : Between log cursor done (read ++ todo)) :
    Between log (lastSeen cursor read) (done ++ read) todo where
  whole := by rw [h.whole, append_assoc]
  done e he := by
    obtain ⟨hcursor, hread⟩ := le_lastSeen read cursor
    obtain he | he := mem_append.mp he
    · exact Int.le_trans (h.done e he) hcursor
    · exact hread e he
  todo e he := by
    rw [h.whole, pairwise_append, pairwise_append] at hlog
    exact lastSeen_lt read (h.todo e (mem_append_right read he)) fun f hf =>
      Int.ofNat_lt.mpr (hlog.2.1.2.2 f hf e he)

theorem logged_append (yields more : List (Yielded φ × τ)) : logged (yields ++ more) = logged yields ++ logged more :=
  filterMap_append

/-- Over all connections. -/
theorem iterRunEvents_delivers {loads : List Char → Loaded φ} [LE τ] [DecidableLE τ] [LT τ] [DecidableLT τ] {deadline : τ}
    {log : RunLog loads} {attempts : List (Int → Attempt τ)} (h : ∀ attempt ∈ attempts, Honours log attempt) :
    ∀ {cursor : Int} {done todo : List (LogEvent φ)}, Between log.events cursor done todo →
      ∃ read, read <+: todo ∧
        logged (iterRunEvents loads deadline cursor attempts).yields = read.map LogEvent.fields := by
  induction attempts with
  | nil => exact fun _ => ⟨[], nil_prefix, rfl⟩
  | cons attempt attempts ih =>
    intro cursor done todo hbetween
    have hnone : ∃ read, read <+: todo ∧ [] = read.map LogEvent.fields := ⟨[], nil_prefix, rfl⟩
    rw [iterRunEvents]
    split
    · split
      · exact hnone
      · exact hnone
    · next asked lines closing hattempt =>
      split
      · obtain ⟨items, hitems, hcut⟩ := h attempt mem_cons_self cursor asked lines closing hattempt
        rw [hbetween.filter] at hitems
        have hmem : ∀ e ∈ items.reduceOption, e ∈ log.events := fun e he => by
          rw [hbetween.whole]
          exact mem_append_right done (hitems.subset he)
        have hdelivers : Delivers cursor items.reduceOption (readLines loads deadline cursor [] lines) :=
          delivers_lines hmem hcut
        obtain ⟨read, hread, hlogged, hcursor⟩ := hdelivers
        obtain ⟨rest, rfl⟩ := hread.trans hitems
        have hfirst : ∃ front, front <+: read ++ rest ∧
            logged (readLines loads deadline cursor [] lines).yields = front.map LogEvent.fields :=
          ⟨read, prefix_append read rest, hlogged⟩
        have hboth : ∃ front, front <+: read ++ rest ∧ logged ((readLines loads deadline cursor [] lines).yields ++
            (iterRunEvents loads deadline (readLines loads deadline cursor [] lines).cursor attempts).yields) =
              front.map LogEvent.fields := by
          have hnext := hbetween.read log.increasing
          rw [← hcursor] at hnext
          obtain ⟨more, hmore, hmoreLogged⟩ := ih (fun a ha => h a (mem_cons_of_mem attempt ha)) hnext
          exact ⟨read ++ more, (prefix_append_right_inj read).mpr hmore, by
            rw [logged_append, hlogged, hmoreLogged, map_append]⟩
        dsimp only
        split
        · exact hboth
        · exact hboth
        · exact hfirst
        · exact hfirst
      · exact hnone

/-! A turn. -/

section
variable [Add τ] [Sub τ] [LE τ] [LT τ] [DecidableLE τ] [DecidableLT τ]

/-- Only what a completed run has answered is read aloud, whatever the server and the clock do. -/
theorem follow_only_completed (py : Python φ) (loads : List Char → Loaded φ) (settings : VoiceSettings τ) (started : τ)
    (runId : List Char) (server : TurnServer φ τ) :
    (∃ progress closing, follow py loads settings started runId server = progress ++ closing ∧
      (∀ line ∈ progress, Progress py (runEvents loads settings started server).yields line) ∧
      (closing = [] ∨ (∃ line ∈ fixedLines, closing = [line]) ∨
        (∃ event, .event event ∈ (runEvents loads settings started server).yields.map Prod.fst ∧
          field event "type" = .str completed) ∧
        ∃ text, IsAnswer py runId server.lookups text ∧ closing = [formatSpokenSummary text])) ∧
    (∀ loads' : List Char → Loaded φ, (∀ text, Alike (loads text) (loads' text)) →
      follow py loads' settings started runId server = follow py loads settings started runId server) ∧
    (runEvents loads settings started server).yields.Pairwise (fun earlier _ => ¬Terminal earlier) ∧
    ∀ log : RunLog loads, (∀ attempt ∈ server.attempts, Honours log attempt) →
      ∃ read, read <+: log.events ∧
        logged (runEvents loads settings started server).yields = read.map LogEvent.fields := by
  refine ⟨⟨_, _, rfl, listen_progress _ _ _, ?_⟩, fun loads' h => (follow_same h py settings started runId server).symm,
    (iterRunEvents_stopped server.attempts 0).last, fun log h => ?_⟩
  · obtain hnone | hfixed | ⟨hending, hanswer⟩ :=
      closingLines_cases py runId server.lookups (narrated py loads settings started server).ending
    · exact .inl hnone
    · exact .inr (.inl hfixed)
    · exact .inr (.inr ⟨listen_terminal _ _ _ hending, hanswer⟩)
  · have hstart : Between log.events 0 [] log.events :=
      ⟨rfl, fun e he => absurd he not_mem_nil, fun e he => Int.ofNat_lt.mpr (log.positive e he)⟩
    exact iterRunEvents_delivers h hstart

end

/-- Two events, and whatever else a frame may hold. -/
def twoEvents (text : List Char) : Loaded Empty :=
  if text = "{a}".toList then
    .value (.obj [("sequence", .int 1), ("type", .str toolStarted), ("summary", .str "Comparing  periods.".toList)])
  else if text = "{b}".toList then
    .value (.obj [("sequence", .int 2), ("type", .str completed), ("payload", .str "Sales are 9,999.".toList)])
  else .malformed

def plainPython : Python Empty where
  isZero := nofun
  repr _ := []
  repr_event _ := by decide
  upper text := text

def linesAt (now : Nat) (texts : List String) : List (Line Nat) := texts.map fun text => ⟨text.toList, now, now⟩

def answered : Decoded Empty :=
  .arr [.obj [("role", .str "ASSISTANT".toList), ("run_id", .str "run_1".toList),
    ("parts", .arr [.obj [("type", .str "TEXT".toList), ("content", .str "**Sales** rose 12%.".toList)]])]]

/-- The first connection breaks off within a frame; the second takes up behind the first event. -/
def brokenOnce : TurnServer Empty Nat where
  attempts :=
    [fun _ => .streamed 0 (linesAt 1 ["id: 1", "event: agent.tool_started", "data: {a}", "", "id: 2", "da"]) .dropped,
      fun cursor => if cursor = 1 then .streamed 2 (linesAt 3 [": heartbeat", "", "id: 2", "data: {b}", ""]) .pending
        else .refused 2]
  lookups := [.refused, .answered answered]

example : follow plainPython twoEvents { missionTimeout := 9, minGap := 0, idleHold := 9 } 0 "run_1".toList brokenOnce =
    ["Comparing periods…".toList, "Sales rose 12%.".toList] := by decide

end SelericSwarm.Voice
