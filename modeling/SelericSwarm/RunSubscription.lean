import Mathlib.Data.List.TakeWhile
import SelericSwarm.Privacy
import SelericSwarm.TextStream

/-! `subscribeToRunEvents` at the far end of `stream_run_events`: frames over connections that
break at any byte, and the cursor the client comes back with. -/
open List Option

namespace SelericSwarm
open Keyed RunRepository TextStream

/-- How both sides write a sequence number. -/
def decimal (n : Nat) : List Char := Nat.toDigits 10 n

/-- Up to here every integer is a JavaScript number. -/
def exactNumbers : Nat := 2 ^ 53

/-- The stored events in full, and the library functions between them and the browser:
`model_dump`, `json.dumps`, `int`, and there `JSON.parse` and `Number`. -/
structure EventWire (κ α δ : Type) where
  redaction : Redaction κ
  stored : ActivityEvent → PrivateEvent κ α
  /-- The payload in full has a type of its own. -/
  stored_activity : ∀ event, { (stored event).toActivity with payload := event.payload } = event
  /-- `model_dump(mode="json")` with the `type` added. -/
  data : PrivateEvent κ α → δ
  dumps : δ → List Char
  dumps_ne : ∀ d, dumps d ≠ []
  dumps_escapes : ∀ d, '\n' ∉ dumps d ∧ '\r' ∉ dumps d
  parse : List Char → Option δ
  /-- `Number(event.sequence)`: `none` where there is no such field to read, `some none` where it is not finite. -/
  sequence? : δ → Option (Option Int)
  /-- `Number(id)`, where it is finite. -/
  number : List Char → Option Int
  number_decimal : ∀ n ≤ exactNumbers, number (decimal n) = some (n : Int)
  int? : List Char → Option Int
  int?_decimal : ∀ n, int? (decimal n) = some (n : Int)

/-! Frames. -/

/-- `text.split(/\r?\n/)`, behind the `line` that has been read. -/
def linesFrom (line : List Char) : List Char → List (List Char)
  | [] => [line]
  | '\n' :: text => line :: linesFrom [] text
  | '\r' :: '\n' :: text => line :: linesFrom [] text
  | c :: text => linesFrom (line ++ [c]) text

structure ParsedFrame where
  id : Option (List Char) := none
  event : Option (List Char) := none
  data : Option (List Char) := none

/-- `value.replace(/^ /, "")`. -/
def dropSpace : List Char → List Char
  | ' ' :: value => value
  | value => value

/-- The data, unless there is none. -/
def ParsedFrame.text (frame : ParsedFrame) : Option (List Char) := frame.data.filter (· ≠ [])

def ParsedFrame.readLine (frame : ParsedFrame) (line : List Char) : ParsedFrame :=
  if line = [] ∨ line.head? = some ':' then frame
  else
    let field := line.takeWhile (· ≠ ':')
    let value := dropSpace ((line.dropWhile (· ≠ ':')).drop 1)
    if field = "id".toList then { frame with id := some value }
    else if field = "event".toList then { frame with event := some value }
    else if field = "data".toList then
      { frame with data := some (frame.text.elim value fun data => data ++ '\n' :: value) }
    else frame

def parseSseFrame (raw : List Char) : Option ParsedFrame :=
  let frame := (linesFrom [] raw).foldl ParsedFrame.readLine {}
  if frame.id.isNone && frame.event.isNone && frame.data.isNone then none else some frame

/-- What the subscription has handed to `onEvent`, and its cursor. -/
structure EventReader (δ : Type) where
  cursor : Nat
  handed : List δ := []

/-- The comment `: heartbeat`. -/
def heartbeat : List Char := [':', ' ', 'h', 'e', 'a', 'r', 't', 'b', 'e', 'a', 't']

namespace EventWire
variable {κ α δ : Type} (wire : EventWire κ α δ)

/-- `_sse_event` without the empty line. -/
def sseEvent (event : PrivateEvent κ α) : List Char :=
  "id: ".toList ++ decimal event.sequence ++ '\n' :: ("event: ".toList ++ event.eventType.toList ++
    '\n' :: ("data: ".toList ++ wire.dumps (wire.data event)))

/-- What `generate` yields: an event, or a heartbeat. -/
def block (item : Option (PrivateEvent κ α)) : List Char := item.elim heartbeat wire.sseEvent

/-- `_event_cursor`: `rsplit(":", 1)[-1]` of the header. -/
def eventCursor (lastEventId : List Char) (afterSequence : Nat) : Nat :=
  match wire.int? (lastEventId.reverse.takeWhile (· ≠ ':')).reverse with
  | some value => (max (afterSequence : Int) value).toNat
  | none => afterSequence

/-- The event in a frame, and the number it moves the cursor to. -/
def frameEvent (raw : List Char) : Option (Option Int × δ) :=
  (parseSseFrame raw).bind fun frame => frame.text.bind fun text => (wire.parse text).bind fun event =>
    (frame.id.elim (wire.sequence? event) fun id => some (wire.number id)).map fun number => (number, event)

/-- One frame of the client's loop. -/
def onFrame (reader : EventReader δ) (raw : List Char) : EventReader δ :=
  match wire.frameEvent raw with
  | none => reader
  | some (number, event) =>
    { cursor := (max (reader.cursor : Int) (number.getD 0)).toNat, handed := reader.handed ++ [event] }

end EventWire

/-! What the client reads of the server's frames. -/

theorem not_mem_decimal {n : Nat} {c : Char} (hc : c.isDigit = false) : c ∉ decimal n := by
  intro h
  have hdigit := Nat.isDigit_of_mem_toDigits (by decide) (by decide) h
  rw [hc] at hdigit
  cases hdigit

theorem linesFrom_line {text : List Char} (rest : List Char) (h : '\n' ∉ text) : ∀ line : List Char,
    ∃ shown, linesFrom line (text ++ '\n' :: rest) = (line ++ shown) :: linesFrom [] rest ∧
      (text = shown ∨ text = shown ++ ['\r']) := by
  induction text with
  | nil => exact fun line => ⟨[], by simp [linesFrom], Or.inl rfl⟩
  | cons c text ih =>
    intro line
    simp only [mem_cons, not_or] at h
    obtain ⟨hc, htext⟩ := h
    by_cases hend : c = '\r' ∧ text = []
    · obtain ⟨rfl, rfl⟩ := hend
      exact ⟨[], by simp [linesFrom], Or.inr rfl⟩
    · have hnext : linesFrom line (c :: (text ++ '\n' :: rest)) = linesFrom (line ++ [c]) (text ++ '\n' :: rest) := by
        rw [linesFrom]
        · exact fun he => hc he.symm
        · rintro more rfl hmore
          cases text with
          | nil => exact hend ⟨rfl, rfl⟩
          | cons d text => exact htext (mem_cons.mpr (Or.inl (List.cons.inj hmore).1.symm))
      obtain ⟨shown, hlines, hshown⟩ := ih htext (line ++ [c])
      refine ⟨c :: shown, by rw [cons_append, hnext, hlines]; simp, ?_⟩
      obtain rfl | rfl := hshown
      · exact Or.inl rfl
      · exact Or.inr rfl

theorem linesFrom_last {text : List Char} (h : '\n' ∉ text) : ∀ line : List Char, linesFrom line text = [line ++ text] := by
  induction text with
  | nil => exact fun line => by rw [linesFrom, append_nil]
  | cons c text ih =>
    intro line
    simp only [mem_cons, not_or] at h
    obtain ⟨hc, htext⟩ := h
    rw [linesFrom, ih htext, append_assoc]
    · rfl
    · exact fun he => hc he.symm
    · rintro more - rfl
      exact htext mem_cons_self

/-- A line `field: value`. -/
theorem readLine_field {name value : List Char} (frame : ParsedFrame) (hne : name ≠ []) (hname : ':' ∉ name) :
    frame.readLine (name ++ ':' :: ' ' :: value) =
      if name = "id".toList then { frame with id := some value }
      else if name = "event".toList then { frame with event := some value }
      else if name = "data".toList then
        { frame with data := some (frame.text.elim value fun data => data ++ '\n' :: value) }
      else frame := by
  have hall : ∀ c ∈ name, decide (c ≠ ':') = true := fun c hc => decide_eq_true fun he => hname (he ▸ hc)
  have hfront : (name ++ ':' :: ' ' :: value).takeWhile (· ≠ ':') = name := by
    rw [takeWhile_append_of_pos hall]
    simp
  have hback : ((name ++ ':' :: ' ' :: value).dropWhile (· ≠ ':')).drop 1 = ' ' :: value := by
    rw [dropWhile_append_of_pos hall]
    simp
  have hline : ¬(name ++ ':' :: ' ' :: value = [] ∨ (name ++ ':' :: ' ' :: value).head? = some ':') := by
    cases name with
    | nil => exact absurd rfl hne
    | cons c name =>
      simp only [mem_cons, not_or] at hname
      simpa using Ne.symm hname.1
  rw [ParsedFrame.readLine, if_neg hline, hfront, hback]
  rfl

namespace EventWire
variable {κ α δ : Type} (wire : EventWire κ α δ)

theorem event_line {type shown : List Char} (h : "event: ".toList ++ type = shown ∨ "event: ".toList ++ type = shown ++ ['\r']) :
    ∃ value, shown = "event".toList ++ ':' :: ' ' :: value := by
  obtain rfl | h := h
  · exact ⟨type, rfl⟩
  · obtain rfl | ⟨front, c, rfl⟩ := type.eq_nil_or_concat'
    · have hlast := congrArg List.getLast? h
      simp at hlast
    · rw [← append_assoc] at h
      exact ⟨front, (append_inj' h rfl).1.symm⟩

variable {event : PrivateEvent κ α}

theorem parseSseFrame_sseEvent (h : '\n' ∉ event.eventType.toList) :
    ∃ type, parseSseFrame (wire.sseEvent event) =
      some ⟨some (decimal event.sequence), some type, some (wire.dumps (wire.data event))⟩ := by
  have hid : '\n' ∉ "id: ".toList ++ decimal event.sequence := by
    simp [not_mem_decimal (n := event.sequence) (c := '\n') (by decide)]
  have hreturn : '\r' ∉ "id: ".toList ++ decimal event.sequence := by
    simp [not_mem_decimal (n := event.sequence) (c := '\r') (by decide)]
  have hevent : '\n' ∉ "event: ".toList ++ event.eventType.toList := by
    rw [mem_append, not_or]
    exact ⟨by decide, h⟩
  have hdata : '\n' ∉ "data: ".toList ++ wire.dumps (wire.data event) := by
    rw [mem_append, not_or]
    exact ⟨by decide, (wire.dumps_escapes _).1⟩
  obtain ⟨first, hfirst, rfl | hcut⟩ := linesFrom_line ("event: ".toList ++ event.eventType.toList ++
    '\n' :: ("data: ".toList ++ wire.dumps (wire.data event))) hid []
  · obtain ⟨second, hsecond, hshown⟩ := linesFrom_line ("data: ".toList ++ wire.dumps (wire.data event)) hevent []
    obtain ⟨type, rfl⟩ := event_line hshown
    have hlines : linesFrom [] (wire.sseEvent event) = ["id".toList ++ ':' :: ' ' :: decimal event.sequence,
        "event".toList ++ ':' :: ' ' :: type, "data".toList ++ ':' :: ' ' :: wire.dumps (wire.data event)] := by
      unfold sseEvent
      rw [hfirst, hsecond, linesFrom_last hdata]
      rfl
    have hread : (linesFrom [] (wire.sseEvent event)).foldl ParsedFrame.readLine {} =
        ⟨some (decimal event.sequence), some type, some (wire.dumps (wire.data event))⟩ := by
      rw [hlines, foldl_cons, foldl_cons, foldl_cons, foldl_nil,
        readLine_field _ (by decide) (by decide), readLine_field _ (by decide) (by decide),
        readLine_field _ (by decide) (by decide)]
      rfl
    exact ⟨type, by simp [parseSseFrame, hread]⟩
  · rw [hcut] at hreturn
    exact absurd (mem_append_right first (mem_singleton.mpr rfl)) hreturn

/-- What the client can read back: the event type is one line, the sequence a JavaScript number,
and `JSON.parse` gives what `json.dumps` was given. -/
def Readable (event : PrivateEvent κ α) : Prop :=
  '\n' ∉ event.eventType.toList ∧ event.sequence ≤ exactNumbers ∧
    wire.parse (wire.dumps (wire.data event)) = some (wire.data event)

instance [DecidableEq δ] (event : PrivateEvent κ α) : Decidable (wire.Readable event) :=
  inferInstanceAs (Decidable (_ ∧ _ ∧ _))

theorem frameEvent_event (h : wire.Readable event) :
    wire.frameEvent (wire.sseEvent event) = some (some (event.sequence : Int), wire.data event) := by
  obtain ⟨hline, hexact, hparse⟩ := h
  obtain ⟨type, hframe⟩ := wire.parseSseFrame_sseEvent hline
  have hne := wire.dumps_ne (wire.data event)
  simp [frameEvent, hframe, ParsedFrame.text, Option.filter, hne, hparse, wire.number_decimal _ hexact]

theorem onFrame_event (h : wire.Readable event) (reader : EventReader δ) :
    wire.onFrame reader (wire.block (some event)) =
      { cursor := max reader.cursor event.sequence, handed := reader.handed ++ [wire.data event] } := by
  have hmax : (max (reader.cursor : Int) event.sequence).toNat = max reader.cursor event.sequence := by omega
  simp only [onFrame, block, elim_some, wire.frameEvent_event h, getD_some, hmax]

theorem parseSseFrame_heartbeat : parseSseFrame heartbeat = none := by
  simp [heartbeat, parseSseFrame, linesFrom, ParsedFrame.readLine]

theorem onFrame_heartbeat (reader : EventReader δ) : wire.onFrame reader (wire.block none) = reader := by
  simp only [onFrame, block, elim_none, frameEvent, parseSseFrame_heartbeat, bind_none]

theorem block_tidy {item : Option (PrivateEvent κ α)} (h : ∀ event, item = some event → wire.Readable event) :
    Tidy (wire.block item) := by
  cases item with
  | none => exact tidy_last (by simp [block, heartbeat]) (by simp [block, heartbeat])
  | some event =>
    have hdumps := wire.dumps_escapes (wire.data event)
    have hdata : Tidy ("data: ".toList ++ wire.dumps (wire.data event)) := by
      refine tidy_last ?_ ?_ <;> rw [mem_append, not_or]
      · exact ⟨by decide, hdumps.1⟩
      · exact ⟨by decide, hdumps.2⟩
    have hevent : Tidy ("event: ".toList ++ event.eventType.toList ++
        '\n' :: ("data: ".toList ++ wire.dumps (wire.data event))) := by
      refine tidy_line ?_ (by decide) (by decide) hdata
      rw [mem_append, not_or]
      exact ⟨by decide, (h event rfl).1⟩
    refine tidy_line ?_ (by decide) (by decide) hevent
    rw [mem_append, not_or]
    exact ⟨by decide, not_mem_decimal (by decide)⟩

theorem eventCursor_decimal (cursor : Nat) : wire.eventCursor (decimal cursor) cursor = cursor := by
  have hall : ∀ c ∈ (decimal cursor).reverse, decide (c ≠ ':') = true := by
    intro c hc
    refine decide_eq_true ?_
    rintro rfl
    exact not_mem_decimal (by decide) (mem_reverse.mp hc)
  have hlast : (decimal cursor).reverse.takeWhile (· ≠ ':') = (decimal cursor).reverse :=
    takeWhile_eq_self_iff.mpr hall
  simp only [eventCursor, hlast, reverse_reverse, wire.int?_decimal]
  omega

end EventWire

/-! Server, connection and client. -/

/-- A response: the generator, what it has yielded, and how many bytes of it have arrived. -/
structure Connection (κ α : Type) where
  stream : RunStream
  yielded : List (Option (PrivateEvent κ α)) := []
  taken : Nat := 0
  reader : TextStream.Reader := {}

structure RunSubscription (κ α δ : Type) where
  repo : RunRepository := {}
  client : EventReader δ
  connection : Option (Connection κ α) := none

/-- `close` is the end of the body, `drop` an error of the connection. -/
inductive SubscriptionStep where
  | call (op : RunOp)
  | connect
  | list
  | next
  | read
  | wake
  | deliver (n : Nat)
  | close
  | drop

def StreamStep.nextEvent? : StreamStep → Option ActivityEvent
  | .yielding (event :: _) => some event
  | _ => none

def StreamStep.isWaiting : StreamStep → Bool
  | .waiting => true
  | _ => false

def StreamStep.isYielding : StreamStep → Bool
  | .yielding _ => true
  | _ => false

/-- The connection breaks off or ends. -/
def SubscriptionStep.cuts : SubscriptionStep → Bool
  | .close | .drop => true
  | _ => false

section Subscription
variable {κ α δ : Type} (wire : EventWire κ α δ) (principal : Principal) (runId : String)

/-- What `event_for_principal` returns of the events. -/
def EventWire.shown (events : List ActivityEvent) : List (PrivateEvent κ α) :=
  events.filterMap fun event => wire.redaction.eventForPrincipal (wire.stored event) principal

namespace Connection

def bytes (c : Connection κ α) : List UInt8 := encode (join (c.yielded.map wire.block))

def list (s : RunRepository) (c : Connection κ α) : Option (Connection κ α) :=
  (c.stream.list runId s).map fun stream => { c with stream }

def next (c : Connection κ α) : Option (Connection κ α) :=
  (c.stream.next wire.redaction.lower principal).map fun stream => { c with
    stream, yielded := c.yielded ++ (wire.shown principal c.stream.step.nextEvent?.toList).map some }

def read (s : RunRepository) (c : Connection κ α) : Option (Connection κ α) :=
  (c.stream.read runId s).map fun stream => { c with
    stream, yielded := c.yielded ++ if stream.step.isWaiting then [none] else [] }

def wake (c : Connection κ α) : Option (Connection κ α) := c.stream.wake.map fun stream => { c with stream }

end Connection

namespace RunSubscription

def onConnection (w : RunSubscription κ α δ) (f : Connection κ α → Option (Connection κ α)) :
    Option (RunSubscription κ α δ) :=
  (w.connection.bind f).map fun c => { w with connection := some c }

def step (w : RunSubscription κ α δ) : SubscriptionStep → Option (RunSubscription κ α δ)
  | .call op => (op.step w.repo).map fun repo => { w with repo }
  | .connect =>
    if w.connection.isNone ∧ (w.repo.get runId).isSome then
      let cursor := wire.eventCursor (decimal w.client.cursor) w.client.cursor
      some { w with connection := some { stream := { start := cursor, cursor := cursor } } }
    else none
  | .list => w.onConnection fun c => c.list runId w.repo
  | .next => w.onConnection fun c => c.next wire principal
  | .read => w.onConnection fun c => c.read runId w.repo
  | .wake => w.onConnection fun c => c.wake
  | .deliver n => w.connection.bind fun c =>
    if c.taken + n ≤ (c.bytes wire).length then
      let fed := c.reader.feed (((c.bytes wire).drop c.taken).take n)
      some { w with
        client := fed.2.foldl wire.onFrame w.client
        connection := some { c with taken := c.taken + n, reader := fed.1 } }
    else none
  | .close => w.connection.map fun c => { w with
      client := c.reader.flush.foldl wire.onFrame w.client
      connection := none }
  | .drop => if w.connection.isSome then some { w with connection := none } else none

/-- Every event of the run that the principal sees can be read back. -/
def Readable (w : RunSubscription κ α δ) : Prop :=
  ∀ event ∈ wire.shown principal (w.repo.eventsOf runId), wire.Readable event

instance [DecidableEq δ] (w : RunSubscription κ α δ) : Decidable (w.Readable wire principal runId) :=
  inferInstanceAs (Decidable (∀ event ∈ _, wire.Readable event))

end RunSubscription

/-! Logs between two cursors. -/

variable {events : List ActivityEvent} {cursor : Nat}

theorem Ordered.split (ho : Ordered events) (cursor : Nat) :
    (events.filter fun e => e.sequence ≤ cursor) ++ (events.filter fun e => cursor < e.sequence) = events := by
  induction events with
  | nil => rfl
  | cons x events ih =>
    obtain ⟨hlt, ho⟩ := pairwise_cons.mp ho
    by_cases hx : x.sequence ≤ cursor
    · rw [filter_cons_of_pos (by simpa using hx), filter_cons_of_neg (by simpa using hx), cons_append, ih ho]
    · have hnone : (events.filter fun e => e.sequence ≤ cursor) = [] := by
        rw [filter_eq_nil_iff]
        intro e he
        have := hlt e he
        simp only [decide_eq_true_eq]
        omega
      have hall := ih ho
      rw [hnone, nil_append] at hall
      rw [filter_cons_of_neg (by simpa using hx), hnone, nil_append,
        filter_cons_of_pos (by simpa using Nat.lt_of_not_le hx), hall]

theorem Ordered.behind_split (ho : Ordered events) {start : Nat} (h : start ≤ cursor) :
    (events.filter fun e => start < e.sequence) =
      between start cursor events ++ events.filter fun e => cursor < e.sequence := by
  conv => lhs; rw [← ho.split cursor, filter_append, List.filter_filter, List.filter_filter]
  congr 1
  refine filter_congr fun e _ => ?_
  by_cases he : cursor < e.sequence
  · simp [he, Nat.lt_of_le_of_lt h he]
  · simp [he]

theorem Ordered.between_split (ho : Ordered events) {start middle : Nat} (hs : start ≤ middle)
    (hc : middle ≤ cursor) :
    between start cursor events = between start middle events ++ between middle cursor events := by
  have hbetween : ∀ start, between start cursor events =
      (events.filter fun e => start < e.sequence).filter fun e => e.sequence ≤ cursor := by
    intro start
    rw [between, List.filter_filter]
    exact filter_congr fun e _ => Bool.and_comm _ _
  rw [hbetween start, ho.behind_split hs, filter_append, ← hbetween middle]
  congr 1
  refine filter_eq_self.mpr ?_
  intro e he
  have hle : e.sequence ≤ middle := by simpa using (mem_filter.mp he).2 |> Bool.and_elim_right
  exact decide_eq_true (hle.trans hc)

theorem Ordered.between_cut {front back : List ActivityEvent} (ho : Ordered events) {start : Nat}
    {e : ActivityEvent} (h : between start cursor events = front ++ e :: back) :
    between start e.sequence events = front ++ [e] ∧ between e.sequence cursor events = back := by
  have hmem : e ∈ between start cursor events := by simp [h]
  obtain ⟨hs, hc⟩ : start < e.sequence ∧ e.sequence ≤ cursor := by simpa using (mem_filter.mp hmem).2
  have hpart : Ordered (front ++ e :: back) := h ▸ ho.sublist filter_sublist
  obtain ⟨-, hback, hfront⟩ := pairwise_append.mp hpart
  have hlt : ∀ x ∈ back, e.sequence < x.sequence := (pairwise_cons.mp hback).1
  constructor
  · have hupto : between start e.sequence events =
        (between start cursor events).filter fun x => x.sequence ≤ e.sequence := by
      rw [between, between, List.filter_filter]
      refine filter_congr fun x _ => ?_
      by_cases hx : x.sequence ≤ e.sequence
      · simp [hx, hx.trans hc]
      · simp [hx]
    have hkept : front.filter (fun x => x.sequence ≤ e.sequence) = front :=
      filter_eq_self.mpr fun x hx => decide_eq_true (hfront x hx e mem_cons_self).le
    have hgone : back.filter (fun x => x.sequence ≤ e.sequence) = [] :=
      filter_eq_nil_iff.mpr fun x hx => by simpa using hlt x hx
    rw [hupto, h, filter_append, filter_cons_of_pos (by simp), hkept, hgone]
  · have hbeyond : between e.sequence cursor events =
        (between start cursor events).filter fun x => e.sequence < x.sequence := by
      rw [between, between, List.filter_filter]
      refine filter_congr fun x _ => ?_
      by_cases hx : e.sequence < x.sequence
      · simp [hx, hs.trans hx]
      · simp [hx]
    have hkept : back.filter (fun x => e.sequence < x.sequence) = back :=
      filter_eq_self.mpr fun x hx => decide_eq_true (hlt x hx)
    have hgone : front.filter (fun x => e.sequence < x.sequence) = [] :=
      filter_eq_nil_iff.mpr fun x hx => by simpa using (hfront x hx e mem_cons_self).le
    rw [hbeyond, h, filter_append, filter_cons_of_neg (by simp), hkept, hgone, nil_append]

/-- What is filed later stands behind a cursor that has been reached. -/
theorem Ordered.between_kept {events' : List ActivityEvent} (ho : Ordered events') (hext : events <+: events')
    {start : Nat} (hreached : cursor ≤ start ∨ ∃ e ∈ events, e.sequence = cursor) :
    between start cursor events' = between start cursor events := by
  obtain ⟨later, rfl⟩ := hext
  have hnone : between start cursor later = [] := by
    rw [between, filter_eq_nil_iff]
    intro x hx
    simp only [Bool.and_eq_true, decide_eq_true_eq, not_and, not_le]
    intro hstart
    obtain hle | ⟨e, he, rfl⟩ := hreached
    · omega
    · exact (pairwise_append.mp ho).2.2 e he x hx
  rw [between_append, hnone, append_nil]

/-! What is handed over. -/

theorem EventWire.shown_append (events more : List ActivityEvent) :
    wire.shown principal (events ++ more) = wire.shown principal events ++ wire.shown principal more :=
  filterMap_append

theorem EventWire.shown_sequence {event : ActivityEvent} {shown : PrivateEvent κ α}
    (h : wire.redaction.eventForPrincipal (wire.stored event) principal = some shown) :
    shown.sequence = event.sequence := by
  obtain ⟨-, -, heq⟩ := wire.redaction.eventForPrincipal_some h
  rw [heq]
  exact congrArg ActivityEvent.sequence (wire.stored_activity event)

/-- The client has handed over what the principal sees of the events up to its cursor. -/
structure HandedOver (start : Nat) (events : List ActivityEvent) (client : EventReader δ) : Prop where
  handed : client.handed = (wire.shown principal (between start client.cursor events)).map wire.data
  last : client.cursor =
    ((wire.shown principal (between start client.cursor events)).getLast?.map (·.sequence)).getD start
  start_le : start ≤ client.cursor
  reached : client.cursor ≤ start ∨ ∃ e ∈ events, e.sequence = client.cursor

/-- `front` has arrived; `todo` is the rest of what the connection's server has yielded. -/
structure Connected (events : List ActivityEvent) (client : EventReader δ) (c : Connection κ α)
    (front todo : List (Option (PrivateEvent κ α))) : Prop where
  yielded : c.yielded = front ++ todo
  taken : c.taken ≤ (c.bytes wire).length
  reads : Reads ((c.bytes wire).take c.taken) c.reader (front.map wire.block)
  readable : ∀ event, some event ∈ c.yielded → wire.Readable event
  todo : todo.filterMap id = wire.shown principal (between client.cursor c.stream.cursor events)
  cursor_le : client.cursor ≤ c.stream.cursor
  reached : c.stream.cursor ≤ client.cursor ∨ ∃ e ∈ events, e.sequence = c.stream.cursor
  rest : ∀ rest, c.stream.step = .yielding rest → rest <+: events.filter fun e => c.stream.cursor < e.sequence

section Delivery
variable {wire principal} {start : Nat} {events : List ActivityEvent} {client : EventReader δ}

theorem HandedOver.event (h : HandedOver wire principal start events client) (ho : Ordered events) {cursor : Nat}
    {event : PrivateEvent κ α} {rest : List (PrivateEvent κ α)} (hreadable : wire.Readable event)
    (hnext : event :: rest = wire.shown principal (between client.cursor cursor events)) :
    HandedOver wire principal start events (wire.onFrame client (wire.block (some event))) ∧
      client.cursor ≤ (wire.onFrame client (wire.block (some event))).cursor ∧
      (wire.onFrame client (wire.block (some event))).cursor ≤ cursor ∧
      rest = wire.shown principal (between (wire.onFrame client (wire.block (some event))).cursor cursor events) := by
  obtain ⟨front, e, back, hbetween, hfront, he, hback⟩ := filterMap_eq_cons_iff.mp hnext.symm
  have hmem : e ∈ between client.cursor cursor events := by simp [hbetween]
  obtain ⟨hevents, hbounds⟩ := mem_filter.mp hmem
  obtain ⟨hs, hc⟩ : client.cursor < e.sequence ∧ e.sequence ≤ cursor := by simpa using hbounds
  have hsequence := wire.shown_sequence principal he
  obtain ⟨hupto, hbeyond⟩ := ho.between_cut hbetween
  have hpassed : wire.shown principal (front ++ [e]) = [event] := by
    rw [EventWire.shown_append, EventWire.shown, filterMap_eq_nil_iff.mpr hfront, EventWire.shown, nil_append]
    simp [he]
  have hall : wire.shown principal (between start e.sequence events) =
      wire.shown principal (between start client.cursor events) ++ [event] := by
    rw [ho.between_split h.start_le hs.le, EventWire.shown_append, hupto, hpassed]
  have hmax : max client.cursor event.sequence = e.sequence := by omega
  rw [wire.onFrame_event hreadable, hmax]
  refine ⟨⟨?_, ?_, h.start_le.trans hs.le, Or.inr ⟨e, hevents, rfl⟩⟩, hs.le, hc, ?_⟩
  · rw [hall, map_append, ← h.handed]
    rfl
  · rw [hall, List.getLast?_concat, map_some, getD_some, hsequence]
  · rw [hbeyond]
    exact hback.symm

theorem HandedOver.frames (ho : Ordered events) {cursor : Nat} {todo : List (Option (PrivateEvent κ α))}
    (items : List (Option (PrivateEvent κ α))) : ∀ client : EventReader δ, HandedOver wire principal start events client →
      (∀ event, some event ∈ items → wire.Readable event) → client.cursor ≤ cursor →
      (items ++ todo).filterMap id = wire.shown principal (between client.cursor cursor events) →
      HandedOver wire principal start events ((items.map wire.block).foldl wire.onFrame client) ∧
        client.cursor ≤ ((items.map wire.block).foldl wire.onFrame client).cursor ∧
        ((items.map wire.block).foldl wire.onFrame client).cursor ≤ cursor ∧
        todo.filterMap id = wire.shown principal
          (between ((items.map wire.block).foldl wire.onFrame client).cursor cursor events) := by
  induction items with
  | nil => exact fun client h _ hle htodo => ⟨h, le_rfl, hle, htodo⟩
  | cons item items ih =>
    intro client h hreadable hle htodo
    have hrest : ∀ event, some event ∈ items → wire.Readable event :=
      fun event he => hreadable event (mem_cons_of_mem item he)
    rw [map_cons, foldl_cons]
    cases item with
    | none =>
      rw [wire.onFrame_heartbeat]
      exact ih client h hrest hle htodo
    | some event =>
      obtain ⟨hevent, hgrows, hle', hnext⟩ := h.event ho (hreadable event mem_cons_self) htodo
      obtain ⟨hall, hgrows', hle'', hdone⟩ := ih _ hevent hrest hle' hnext
      exact ⟨hall, hgrows.trans hgrows', hle'', hdone⟩

theorem between_self (events : List ActivityEvent) : between start start events = [] := by
  rw [between, filter_eq_nil_iff]
  intro e _
  simp

theorem HandedOver.none (events : List ActivityEvent) : HandedOver wire principal start events { cursor := start } := by
  constructor
  · rw [between_self]
    rfl
  · rw [between_self]
    rfl
  · exact le_rfl
  · exact Or.inl le_rfl

variable {events' : List ActivityEvent} {c c' : Connection κ α} {front todo : List (Option (PrivateEvent κ α))}
  {runId : String} {s : RunRepository}

theorem HandedOver.grow (h : HandedOver wire principal start events client) (ho : Ordered events')
    (hext : events <+: events') : HandedOver wire principal start events' client := by
  have hkept := ho.between_kept hext h.reached
  refine ⟨hkept ▸ h.handed, hkept ▸ h.last, h.start_le, h.reached.imp_right ?_⟩
  exact fun ⟨e, he, hc⟩ => ⟨e, hext.subset he, hc⟩

namespace Connected

section
variable (h : Connected wire principal events client c front todo)
include h

theorem grow (ho : Ordered events') (hext : events <+: events') :
    Connected wire principal events' client c front todo :=
  { h with
    todo := h.todo.trans (congrArg _ (ho.between_kept hext h.reached).symm)
    reached := h.reached.imp_right fun ⟨e, he, hc⟩ => ⟨e, hext.subset he, hc⟩
    rest := fun rest hr => (h.rest rest hr).trans (by
      obtain ⟨later, rfl⟩ := hext
      rw [filter_append]
      exact prefix_append _ _) }

/-- The generator has yielded `items` and stands at `stream`. -/
theorem yield {stream : RunStream} (items : List (Option (PrivateEvent κ α)))
    (hreadable : ∀ event, some event ∈ items → wire.Readable event)
    (htodo : (todo ++ items).filterMap id = wire.shown principal (between client.cursor stream.cursor events))
    (hle : c.stream.cursor ≤ stream.cursor)
    (hreached : stream.cursor ≤ client.cursor ∨ ∃ e ∈ events, e.sequence = stream.cursor)
    (hrest : ∀ rest, stream.step = .yielding rest → rest <+: events.filter fun e => stream.cursor < e.sequence) :
    Connected wire principal events client { c with stream, yielded := c.yielded ++ items } front (todo ++ items) := by
  have hbytes : ({ c with stream, yielded := c.yielded ++ items } : Connection κ α).bytes wire =
      c.bytes wire ++ encode (join (items.map wire.block)) := by
    rw [Connection.bytes, map_append, join_append, encode_append, Connection.bytes]
  constructor
  · rw [h.yielded, append_assoc]
  · rw [hbytes, length_append]
    exact h.taken.trans (Nat.le_add_right _ _)
  · rw [hbytes, take_append_of_le_length h.taken]
    exact h.reads
  · intro event he
    obtain he | he := mem_append.mp he
    · exact h.readable event he
    · exact hreadable event he
  · exact htodo
  · exact h.cursor_le.trans hle
  · exact hreached
  · exact hrest

theorem move {stream : RunStream} (hcursor : stream.cursor = c.stream.cursor)
    (hrest : ∀ rest, stream.step = .yielding rest → rest <+: events.filter fun e => c.stream.cursor < e.sequence) :
    Connected wire principal events client { c with stream } front todo :=
  { h with
    todo := by rw [hcursor]; exact h.todo
    cursor_le := by rw [hcursor]; exact h.cursor_le
    reached := by rw [hcursor]; exact h.reached
    rest := by rw [hcursor]; exact hrest }

end

theorem list (h : Connected wire principal (s.eventsOf runId) client c front todo) (hs : c.list runId s = some c') :
    Connected wire principal (s.eventsOf runId) client c' front todo := by
  obtain ⟨stream, hstream, rfl⟩ := map_eq_some_iff.mp hs
  unfold RunStream.list at hstream
  cases hstep : c.stream.step with
  | listing =>
    rw [hstep] at hstream
    obtain rfl := Option.some.inj hstream
    refine h.move rfl ?_
    intro rest hrest
    obtain rfl := StreamStep.yielding.inj hrest
    exact prefix_rfl
  | yielding => simp [hstep] at hstream
  | reading => simp [hstep] at hstream
  | waiting => simp [hstep] at hstream
  | returned => simp [hstep] at hstream

section
variable (h : Connected wire principal events client c front todo)
include h

theorem next (ho : Ordered events) (hreadable : ∀ event ∈ wire.shown principal events, wire.Readable event)
    (hs : c.next wire principal = some c') :
    ∃ items, Connected wire principal events client c' front (todo ++ items) := by
  obtain ⟨stream, hstream, rfl⟩ := map_eq_some_iff.mp hs
  unfold RunStream.next at hstream
  cases hstep : c.stream.step with
  | yielding rest =>
    rw [hstep] at hstream
    cases rest with
    | nil =>
      obtain rfl := Option.some.inj hstream
      refine ⟨[], h.yield [] (by simp) ?_ le_rfl h.reached nofun⟩
      rw [append_nil]
      exact h.todo
    | cons event rest =>
      obtain rfl := Option.some.inj hstream
      obtain ⟨tail, htail⟩ := h.rest _ hstep
      rw [cons_append] at htail
      obtain ⟨hupto, hbeyond⟩ := ho.advance h.cursor_le htail.symm
      have hmem : event ∈ events.filter fun e => c.stream.cursor < e.sequence := by simp [← htail]
      obtain ⟨hevent, hnew⟩ := mem_filter.mp hmem
      have hmax : max c.stream.cursor event.sequence = event.sequence := by
        have := of_decide_eq_true hnew
        omega
      refine ⟨(wire.shown principal [event]).map some, h.yield _ ?_ ?_ (le_max_left _ _) ?_ ?_⟩
      · intro shown hshown
        obtain ⟨_, hmem, ⟨⟩⟩ := List.mem_map.mp hshown
        refine hreadable shown (mem_filterMap.mpr ⟨event, hevent, ?_⟩)
        simpa [EventWire.shown, StreamStep.nextEvent?] using hmem
      · dsimp only
        rw [hmax, hupto, EventWire.shown_append, ← h.todo, filterMap_append, filterMap_map]
        simp [StreamStep.nextEvent?]
      · dsimp only
        rw [hmax]
        exact Or.inr ⟨event, hevent, rfl⟩
      · dsimp only
        rw [hmax, hbeyond]
        intro later hlater
        obtain rfl := StreamStep.yielding.inj hlater
        exact prefix_append _ _
  | listing => simp [hstep] at hstream
  | reading => simp [hstep] at hstream
  | waiting => simp [hstep] at hstream
  | returned => simp [hstep] at hstream

theorem read (hs : c.read runId s = some c') :
    ∃ items, Connected wire principal events client c' front (todo ++ items) := by
  obtain ⟨stream, hstream, rfl⟩ := map_eq_some_iff.mp hs
  unfold RunStream.read at hstream
  cases hstep : c.stream.step with
  | reading =>
    rw [hstep] at hstream
    obtain rfl := Option.some.inj hstream
    cases hended : (s.get runId).all (·.status.terminal) with
    | true =>
      have htodo : (todo ++ []).filterMap id = wire.shown principal (between client.cursor c.stream.cursor events) := by
        rw [append_nil]
        exact h.todo
      exact ⟨[], h.yield [] (by simp) htodo le_rfl h.reached nofun⟩
    | false =>
      have htodo : (todo ++ [none]).filterMap id =
          wire.shown principal (between client.cursor c.stream.cursor events) := by
        rw [filterMap_append, h.todo]
        exact append_nil _
      exact ⟨[none], h.yield [none] (by simp) htodo le_rfl h.reached nofun⟩
  | listing => simp [hstep] at hstream
  | yielding => simp [hstep] at hstream
  | waiting => simp [hstep] at hstream
  | returned => simp [hstep] at hstream

theorem wake (hs : c.wake = some c') : Connected wire principal events client c' front todo := by
  obtain ⟨stream, hstream, rfl⟩ := map_eq_some_iff.mp hs
  unfold RunStream.wake at hstream
  cases hstep : c.stream.step with
  | waiting =>
    rw [hstep] at hstream
    obtain rfl := Option.some.inj hstream
    exact h.move rfl nofun
  | listing => simp [hstep] at hstream
  | yielding => simp [hstep] at hstream
  | reading => simp [hstep] at hstream
  | returned => simp [hstep] at hstream

theorem deliver (hh : HandedOver wire principal start events client) (ho : Ordered events) {n : Nat}
    (hn : c.taken + n ≤ (c.bytes wire).length) {r : TextStream.Reader} {blocks : List (List Char)}
    (hfed : c.reader.feed (((c.bytes wire).drop c.taken).take n) = (r, blocks)) :
    HandedOver wire principal start events (blocks.foldl wire.onFrame client) ∧
      ∃ front' todo', Connected wire principal events (blocks.foldl wire.onFrame client)
        { c with taken := c.taken + n, reader := r } front' todo' := by
  have htidy : ∀ block ∈ c.yielded.map wire.block, Tidy block := by
    intro block hblock
    obtain ⟨item, hitem, rfl⟩ := List.mem_map.mp hblock
    exact wire.block_tidy fun event he => h.readable event (he ▸ hitem)
  have hfront : front.map wire.block <+: c.yielded.map wire.block := by
    rw [h.yielded, map_append]
    exact prefix_append _ _
  have hbytes := take_prefix (c.taken + n) (c.bytes wire)
  rw [take_add] at hbytes
  obtain ⟨hreads, hblocks⟩ := h.reads.feed htidy hfront hbytes
  rw [hfed] at hreads hblocks
  rw [h.yielded, map_append, prefix_append_right_inj] at hblocks
  obtain ⟨rest, hrest⟩ := hblocks
  obtain ⟨items, todo', rfl, rfl, -⟩ := map_eq_append_iff.mp hrest.symm
  obtain ⟨hhanded, hgrows, hle, htodo⟩ := HandedOver.frames ho items client hh
    (fun event he => h.readable event (by rw [h.yielded]; simp [he])) h.cursor_le h.todo
  refine ⟨hhanded, front ++ items, todo', ?_⟩
  constructor
  · rw [h.yielded, append_assoc]
  · exact hn
  · rw [map_append, take_add]
    exact hreads
  · exact h.readable
  · exact htodo
  · exact hle
  · exact h.reached.imp_left fun hreached => hreached.trans hgrows
  · exact h.rest

theorem complete (hh : HandedOver wire principal start events client) (ho : Ordered events)
    (hall : c.taken = (c.bytes wire).length) :
    client.handed = (wire.shown principal (between start c.stream.cursor events)).map wire.data := by
  have htidy : ∀ block ∈ c.yielded.map wire.block, Tidy block := by
    intro block hblock
    obtain ⟨item, hitem, rfl⟩ := List.mem_map.mp hblock
    exact wire.block_tidy fun event he => h.readable event (he ▸ hitem)
  have hreads := h.reads
  rw [hall, take_length] at hreads
  have hfront : front.map wire.block <+: c.yielded.map wire.block := by
    rw [h.yielded, map_append]
    exact prefix_append _ _
  have hdone := hreads.complete htidy hfront
  rw [h.yielded, map_append, self_eq_append_right, map_eq_nil_iff] at hdone
  have htodo := h.todo
  rw [hdone] at htodo
  rw [ho.between_split hh.start_le h.cursor_le, EventWire.shown_append, ← htodo, hh.handed]
  exact congrArg _ (append_nil _).symm

end

end Connected

end Delivery

/-! Every run. -/

theorem onConnection_cases {w w' : RunSubscription κ α δ}
    {f : Connection κ α → Option (Connection κ α)} (hs : w.onConnection f = some w') :
    ∃ c c', w.connection = some c ∧ f c = some c' ∧ w' = { w with connection := some c' } := by
  simp only [RunSubscription.onConnection, map_eq_some_iff, bind_eq_some_iff] at hs
  obtain ⟨c', ⟨c, hc, hfc⟩, rfl⟩ := hs
  exact ⟨c, c', hc, hfc, rfl⟩

structure SubscriptionInv (start : Nat) (w : RunSubscription κ α δ) : Prop where
  wellFormed : WellFormed w.repo
  ordered : ∀ run, w.repo.get runId = some run → Ordered (w.repo.eventsOf runId)
  positive : ∀ run, w.repo.get runId = some run → ∀ e ∈ w.repo.eventsOf runId, 0 < e.sequence
  missing : w.repo.get runId = none → w.client = { cursor := start } ∧ w.connection = none
  handed : ∀ run, w.repo.get runId = some run → HandedOver wire principal start (w.repo.eventsOf runId) w.client
  connected : ∀ c, w.connection = some c →
    ∃ front todo, Connected wire principal (w.repo.eventsOf runId) w.client c front todo

namespace SubscriptionInv
variable {wire principal runId} {start : Nat} {w w' : RunSubscription κ α δ}

theorem exists_run (h : SubscriptionInv wire principal runId start w) {c : Connection κ α} (hc : w.connection = some c) :
    ∃ run, w.repo.get runId = some run := by
  cases hrun : w.repo.get runId with
  | some run => exact ⟨run, rfl⟩
  | none =>
    rw [(h.missing hrun).2] at hc
    cases hc

theorem initial : SubscriptionInv wire principal runId start { client := { cursor := start } } :=
  ⟨RunOp.empty_wellFormed, by simp [RunRepository.get], by simp [RunRepository.get], fun _ => ⟨rfl, rfl⟩,
    by simp [RunRepository.get], by simp⟩

section
variable (h : SubscriptionInv wire principal runId start w)
include h

theorem call {op : RunOp} {repo : RunRepository} (hop : op.step w.repo = some repo) :
    SubscriptionInv wire principal runId start { w with repo } := by
  have hordered := RunOp.step_events .nil (fun _ _ _ hch => hch.ordered) h.wellFormed hop h.ordered
  refine ⟨RunOp.step_wellFormed h.wellFormed hop, hordered,
    RunOp.step_events (P := fun events => ∀ e ∈ events, 0 < e.sequence) (by simp) (fun _ _ _ hch => hch.positive)
      h.wellFormed hop h.positive, ?_, ?_, ?_⟩
  · intro hnone
    cases hold : w.repo.get runId with
    | none => exact h.missing hold
    | some old =>
      obtain ⟨run, hrun, -⟩ := RunOp.step_extends h.wellFormed hop hold
      rw [show repo.get runId = none from hnone] at hrun
      cases hrun
  · intro run hrun
    cases hold : w.repo.get runId with
    | none =>
      dsimp only
      rw [(h.missing hold).1]
      exact .none _
    | some old =>
      obtain ⟨-, -, hext, -⟩ := RunOp.step_extends h.wellFormed hop hold
      exact (h.handed old hold).grow (hordered run hrun) hext
  · intro c hc
    obtain ⟨old, hold⟩ := h.exists_run hc
    obtain ⟨run, hrun, hext, -⟩ := RunOp.step_extends h.wellFormed hop hold
    obtain ⟨front, todo, hconnected⟩ := h.connected c hc
    exact ⟨front, todo, hconnected.grow (hordered run hrun) hext⟩

theorem connect (hs : w.step wire principal runId .connect = some w') :
    SubscriptionInv wire principal runId start w' := by
  simp only [RunSubscription.step, ite_none_right_eq_some, Option.some.injEq, isSome_iff_exists] at hs
  obtain ⟨⟨-, run, hrun⟩, rfl⟩ := hs
  refine { h with
    missing := fun hnone => by rw [show w.repo.get runId = none from hnone] at hrun; cases hrun
    connected := ?_ }
  rintro _ ⟨⟩
  have hcursor := wire.eventCursor_decimal w.client.cursor
  refine ⟨[], [], ⟨rfl, Nat.zero_le _, Reads.start, by simp, ?_, hcursor.ge, Or.inl hcursor.le, nofun⟩⟩
  rw [hcursor, between_self]
  rfl

theorem onConnection {f : Connection κ α → Option (Connection κ α)}
    (hf : ∀ c c' front todo run, w.repo.get runId = some run → f c = some c' →
      Connected wire principal (w.repo.eventsOf runId) w.client c front todo →
      ∃ front' todo', Connected wire principal (w.repo.eventsOf runId) w.client c' front' todo')
    (hs : w.onConnection f = some w') : SubscriptionInv wire principal runId start w' := by
  obtain ⟨c, c', hc, hfc, rfl⟩ := onConnection_cases hs
  obtain ⟨run, hrun⟩ := h.exists_run hc
  obtain ⟨front, todo, hconnected⟩ := h.connected c hc
  refine { h with
    missing := fun hnone => by rw [show w.repo.get runId = none from hnone] at hrun; cases hrun
    connected := ?_ }
  rintro _ ⟨⟩
  exact hf c c' front todo run hrun hfc hconnected

theorem cut : SubscriptionInv wire principal runId start { w with connection := none } :=
  { h with
    missing := fun hnone => ⟨(h.missing hnone).1, rfl⟩
    connected := by simp }

theorem step {a : SubscriptionStep} (hreadable : w.Readable wire principal runId)
    (hs : w.step wire principal runId a = some w') : SubscriptionInv wire principal runId start w' := by
  cases a with
  | call op =>
    obtain ⟨repo, hop, rfl⟩ := map_eq_some_iff.mp hs
    exact h.call hop
  | connect => exact h.connect hs
  | list => exact h.onConnection (fun c c' front todo run _ hf hc => ⟨front, todo, hc.list hf⟩) hs
  | next =>
    refine h.onConnection (fun c c' front todo run hrun hf hc => ?_) hs
    obtain ⟨items, hnext⟩ := hc.next (h.ordered run hrun) hreadable hf
    exact ⟨front, todo ++ items, hnext⟩
  | read =>
    refine h.onConnection (fun c c' front todo run _ hf hc => ?_) hs
    obtain ⟨items, hread⟩ := hc.read hf
    exact ⟨front, todo ++ items, hread⟩
  | wake => exact h.onConnection (fun c c' front todo run _ hf hc => ⟨front, todo, hc.wake hf⟩) hs
  | deliver n =>
    obtain ⟨c, hc, hs⟩ := bind_eq_some_iff.mp hs
    simp only [ite_none_right_eq_some, Option.some.injEq] at hs
    obtain ⟨hn, rfl⟩ := hs
    obtain ⟨run, hrun⟩ := h.exists_run hc
    obtain ⟨front, todo, hconnected⟩ := h.connected c hc
    obtain ⟨hhanded, hdelivered⟩ := hconnected.deliver (h.handed run hrun) (h.ordered run hrun) hn rfl
    refine { h with
      missing := fun hnone => by rw [show w.repo.get runId = none from hnone] at hrun; cases hrun
      handed := fun _ _ => hhanded
      connected := ?_ }
    rintro _ ⟨⟩
    exact hdelivered
  | close =>
    obtain ⟨c, hc, rfl⟩ := map_eq_some_iff.mp hs
    obtain ⟨front, todo, hconnected⟩ := h.connected c hc
    rw [hconnected.reads.flush]
    exact h.cut
  | drop =>
    simp only [RunSubscription.step, ite_none_right_eq_some, Option.some.injEq] at hs
    obtain ⟨-, rfl⟩ := hs
    exact h.cut

end

end SubscriptionInv

/-! One uninterrupted round brings the client up to date. -/

def StreamStep.pending : StreamStep → List ActivityEvent
  | .yielding rest => rest
  | _ => []

/-- The generator has passed the log, but for what it is about to yield. -/
def RunStream.Passed (log : List ActivityEvent) (g : RunStream) : Prop :=
  ∀ e ∈ log, g.cursor < e.sequence → e ∈ g.step.pending

namespace RunStream
variable {lower : String → String} {principal runId} {log : List ActivityEvent} {g g' : RunStream} {s : RunRepository}

theorem passed_list (hlog : log <+: s.eventsOf runId) (hs : g.list runId s = some g') : g'.Passed log := by
  unfold RunStream.list at hs
  cases hstep : g.step with
  | listing =>
    rw [hstep] at hs
    obtain rfl := Option.some.inj hs
    intro e he hcursor
    exact mem_filter.mpr ⟨hlog.subset he, decide_eq_true hcursor⟩
  | yielding => simp [hstep] at hs
  | reading => simp [hstep] at hs
  | waiting => simp [hstep] at hs
  | returned => simp [hstep] at hs

theorem Passed.next (h : g.Passed log) (hs : g.next lower principal = some g') : g'.Passed log := by
  unfold RunStream.next at hs
  cases hstep : g.step with
  | yielding rest =>
    rw [Passed, hstep] at h
    rw [hstep] at hs
    cases rest with
    | nil =>
      obtain rfl := Option.some.inj hs
      exact h
    | cons event rest =>
      obtain rfl := Option.some.inj hs
      intro e he hcursor
      dsimp only at hcursor
      obtain rfl | hrest := mem_cons.mp (h e he (by omega))
      · omega
      · exact hrest
  | listing => simp [hstep] at hs
  | reading => simp [hstep] at hs
  | waiting => simp [hstep] at hs
  | returned => simp [hstep] at hs

theorem Passed.read (h : g.Passed log) (hs : g.read runId s = some g') : g'.Passed log := by
  unfold RunStream.read at hs
  cases hstep : g.step with
  | reading =>
    rw [Passed, hstep] at h
    rw [hstep] at hs
    obtain rfl := Option.some.inj hs
    intro e he hcursor
    cases h e he hcursor
  | listing => simp [hstep] at hs
  | yielding => simp [hstep] at hs
  | waiting => simp [hstep] at hs
  | returned => simp [hstep] at hs

theorem Passed.wake (h : g.Passed log) (hs : g.wake = some g') : g'.Passed log := by
  unfold RunStream.wake at hs
  cases hstep : g.step with
  | waiting =>
    rw [Passed, hstep] at h
    rw [hstep] at hs
    obtain rfl := Option.some.inj hs
    exact h
  | listing => simp [hstep] at hs
  | yielding => simp [hstep] at hs
  | reading => simp [hstep] at hs
  | returned => simp [hstep] at hs

end RunStream

/-- The connection is there, and its generator has passed the log. -/
def CatchingUp (log : List ActivityEvent) (w : RunSubscription κ α δ) : Prop :=
  log <+: w.repo.eventsOf runId ∧ ∃ c, w.connection = some c ∧ c.stream.Passed log

section Rounds
variable {wire principal runId} {start : Nat} {w w' : RunSubscription κ α δ} {log : List ActivityEvent}

theorem catchingUp_list (hlog : log <+: w.repo.eventsOf runId) (hs : w.step wire principal runId .list = some w') :
    CatchingUp runId log w' := by
  obtain ⟨c, c', -, hlist, rfl⟩ := onConnection_cases hs
  obtain ⟨stream, hstream, rfl⟩ := map_eq_some_iff.mp hlist
  exact ⟨hlog, _, rfl, RunStream.passed_list hlog hstream⟩

theorem CatchingUp.step (h : CatchingUp runId log w) (hi : SubscriptionInv wire principal runId start w)
    {a : SubscriptionStep} (ha : a.cuts = false) (hs : w.step wire principal runId a = some w') :
    CatchingUp runId log w' := by
  obtain ⟨hlog, c, hc, hpassed⟩ := h
  cases a with
  | call op =>
    obtain ⟨repo, hop, rfl⟩ := map_eq_some_iff.mp hs
    obtain ⟨run, hrun⟩ := hi.exists_run hc
    obtain ⟨-, -, hext, -⟩ := RunOp.step_extends hi.wellFormed hop hrun
    exact ⟨hlog.trans hext, c, hc, hpassed⟩
  | connect => simp [RunSubscription.step, hc] at hs
  | list => exact catchingUp_list hlog hs
  | next =>
    obtain ⟨d, d', hd, hnext, rfl⟩ := onConnection_cases hs
    obtain rfl := Option.some.inj (hd.symm.trans hc)
    obtain ⟨stream, hstream, rfl⟩ := map_eq_some_iff.mp hnext
    exact ⟨hlog, _, rfl, hpassed.next hstream⟩
  | read =>
    obtain ⟨d, d', hd, hread, rfl⟩ := onConnection_cases hs
    obtain rfl := Option.some.inj (hd.symm.trans hc)
    obtain ⟨stream, hstream, rfl⟩ := map_eq_some_iff.mp hread
    exact ⟨hlog, _, rfl, hpassed.read hstream⟩
  | wake =>
    obtain ⟨d, d', hd, hwake, rfl⟩ := onConnection_cases hs
    obtain rfl := Option.some.inj (hd.symm.trans hc)
    obtain ⟨stream, hstream, rfl⟩ := map_eq_some_iff.mp hwake
    exact ⟨hlog, _, rfl, hpassed.wake hstream⟩
  | deliver n =>
    obtain ⟨d, hd, hs⟩ := bind_eq_some_iff.mp hs
    obtain rfl := Option.some.inj (hd.symm.trans hc)
    simp only [ite_none_right_eq_some, Option.some.injEq] at hs
    obtain ⟨-, rfl⟩ := hs
    exact ⟨hlog, _, rfl, hpassed⟩
  | close => cases ha
  | drop => cases ha

variable {c : Connection κ α}

/-- What has been passed and delivered contains the log. -/
theorem CatchingUp.handed (h : CatchingUp runId log w) (hi : SubscriptionInv wire principal runId start w)
    (hc : w.connection = some c) (hidle : c.stream.step.isYielding = false) (hall : c.taken = (c.bytes wire).length) :
    (wire.shown principal (log.filter fun e => start < e.sequence)).map wire.data <+: w.client.handed := by
  obtain ⟨hlog, d, hd, hpassed⟩ := h
  obtain rfl := Option.some.inj (hd.symm.trans hc)
  obtain ⟨run, hrun⟩ := hi.exists_run hc
  obtain ⟨front, todo, hconnected⟩ := hi.connected d hc
  have hpending : d.stream.step.pending = [] := by
    cases hstep : d.stream.step with
    | yielding rest =>
      rw [hstep] at hidle
      cases hidle
    | listing | reading | waiting | returned => rfl
  obtain ⟨later, hlater⟩ := hlog
  have hbehind : between start d.stream.cursor log = log.filter fun e => start < e.sequence := by
    refine filter_congr fun e he => ?_
    have hle : e.sequence ≤ d.stream.cursor := by
      by_contra hcursor
      have hmem := hpassed e he (Nat.lt_of_not_le hcursor)
      rw [hpending] at hmem
      cases hmem
    simp [hle]
  rw [hconnected.complete (hi.handed run hrun) (hi.ordered run hrun) hall, ← hlater, between_append, hbehind,
    EventWire.shown_append, map_append]
  exact prefix_append _ _

theorem round_handed (hi : SubscriptionInv wire principal runId start w) {round : List SubscriptionStep}
    (hcuts : ∀ a ∈ round, a.cuts = false) (hreadable : Machine.Along (RunSubscription.step wire principal runId)
      (fun w _ => w.Readable wire principal runId) w (.list :: round))
    (h : Machine.exec (RunSubscription.step wire principal runId) w (.list :: round) = some w')
    (hc : w'.connection = some c) (hidle : c.stream.step.isYielding = false)
    (hall : c.taken = (c.bytes wire).length) :
    (wire.shown principal (w.repo.listEvents runId start)).map wire.data <+: w'.client.handed := by
  obtain ⟨w₁, hlist, h⟩ := Machine.exec_cons h
  have hquiet : Machine.Along (RunSubscription.step wire principal runId) (fun _ a => a.cuts = false) w₁ round :=
    Machine.along_of_forall round hcuts w₁
  have hread : Machine.Along (RunSubscription.step wire principal runId)
      (fun w _ => w.Readable wire principal runId) w₁ round := hreadable.2 w₁ hlist
  have hboth : CatchingUp runId (w.repo.eventsOf runId) w' ∧ SubscriptionInv wire principal runId start w' := by
    refine Machine.invariant_along (I := fun w₂ => CatchingUp runId (w.repo.eventsOf runId) w₂ ∧
      SubscriptionInv wire principal runId start w₂) ?_
      ⟨catchingUp_list prefix_rfl hlist, hi.step hreadable.1 hlist⟩ (Machine.along_and hquiet hread) h
    rintro w₂ a w₃ ⟨hcatching, hinv⟩ ⟨hcut, hread⟩ hs
    exact ⟨hcatching.step hinv hcut hs, hinv.step hread hs⟩
  exact hboth.1.handed hboth.2 hc hidle hall

variable (wire principal runId) in
theorem exec_next (rest : List ActivityEvent) : ∀ {w : RunSubscription κ α δ} {c : Connection κ α},
    w.connection = some c → c.stream.step = .yielding rest →
      ∃ c', Machine.exec (RunSubscription.step wire principal runId) w (List.replicate (rest.length + 1) .next) =
          some { w with connection := some c' } ∧ c'.stream.step = .reading ∧ c'.taken = c.taken := by
  induction rest with
  | nil =>
    intro w c hc hstep
    have hnext : ∃ d, c.next wire principal = some d ∧ d.stream.step = .reading ∧ d.taken = c.taken :=
      ⟨{ c with stream := { c.stream with step := .reading }, yielded := c.yielded ++ [] },
        by simp only [Connection.next, RunStream.next, hstep, map_some]; rfl, rfl, rfl⟩
    obtain ⟨d, hd, hreading, htaken⟩ := hnext
    exact ⟨d, by simp [Machine.exec, RunSubscription.step, RunSubscription.onConnection, hc, hd], hreading, htaken⟩
  | cons event rest ih =>
    intro w c hc hstep
    have hnext : ∃ d, c.next wire principal = some d ∧ d.stream.step = .yielding rest ∧ d.taken = c.taken :=
      ⟨{ c with
        stream := { c.stream with
          cursor := max c.stream.cursor event.sequence
          sent := if canViewEvent wire.redaction.lower event principal then c.stream.sent ++ [event] else c.stream.sent
          step := .yielding rest }
        yielded := c.yielded ++ (wire.shown principal [event]).map some },
        by simp only [Connection.next, RunStream.next, hstep, map_some]; rfl, rfl, rfl⟩
    obtain ⟨d, hd, hyielding, htaken⟩ := hnext
    have hstep' : w.step wire principal runId .next = some { w with connection := some d } := by
      simp [RunSubscription.step, RunSubscription.onConnection, hc, hd]
    obtain ⟨c', hc', hreading, htaken'⟩ := ih (w := { w with connection := some d }) rfl hyielding
    refine ⟨c', ?_, hreading, htaken'.trans htaken⟩
    rw [length_cons, replicate_succ, Machine.exec, hstep', bind_some, hc']

def SubscriptionStep.isCall : SubscriptionStep → Bool
  | .call _ => true
  | _ => false

theorem repo_kept {a : SubscriptionStep} (ha : a.isCall = false) (hs : w.step wire principal runId a = some w') :
    w'.repo = w.repo := by
  cases a with
  | call op => cases ha
  | connect =>
    simp only [RunSubscription.step, ite_none_right_eq_some, Option.some.injEq] at hs
    obtain ⟨-, rfl⟩ := hs
    rfl
  | list | next | read | wake =>
    obtain ⟨c, c', -, -, rfl⟩ := onConnection_cases hs
    rfl
  | deliver n =>
    obtain ⟨c, -, hs⟩ := bind_eq_some_iff.mp hs
    simp only [ite_none_right_eq_some, Option.some.injEq] at hs
    obtain ⟨-, rfl⟩ := hs
    rfl
  | close =>
    obtain ⟨c, -, rfl⟩ := map_eq_some_iff.mp hs
    rfl
  | drop =>
    simp only [RunSubscription.step, ite_none_right_eq_some, Option.some.injEq] at hs
    obtain ⟨-, rfl⟩ := hs
    rfl

theorem along_readable (hreadable : w.Readable wire principal runId) {as : List SubscriptionStep}
    (has : ∀ a ∈ as, a.isCall = false) : Machine.Along (RunSubscription.step wire principal runId)
      (fun w _ => w.Readable wire principal runId) w as := by
  have hcalls : Machine.Along (RunSubscription.step wire principal runId) (fun _ a => a.isCall = false) w as :=
    Machine.along_of_forall as has w
  refine Machine.along_of_invariant (I := fun w' => w'.repo = w.repo) ?_ ?_ as w rfl hcalls
  · exact fun _ _ _ hrepo ha hs => (repo_kept ha hs).trans hrepo
  · intro w' _ hrepo _
    rw [RunSubscription.Readable, hrepo]
    exact hreadable

theorem HandedOver.front {events : List ActivityEvent} {client : EventReader δ}
    (h : HandedOver wire principal start events client) (ho : Ordered events) :
    ∃ got, got <+: wire.shown principal (events.filter fun e => start < e.sequence) ∧
      client.handed = got.map wire.data ∧ client.cursor = (got.getLast?.map (·.sequence)).getD start ∧
      got.Pairwise fun a b => a.sequence < b.sequence := by
  refine ⟨_, ?_, h.handed, h.last, ?_⟩
  · rw [ho.behind_split h.start_le, EventWire.shown_append]
    exact prefix_append _ _
  · refine List.Pairwise.filterMap _ ?_ (ho.sublist filter_sublist)
    intro a b hab shown hshown shown' hshown'
    rw [wire.shown_sequence principal hshown, wire.shown_sequence principal hshown']
    exact hab

variable (wire principal runId) in
theorem exists_delivery (hc : w.connection = some c) (htaken : c.taken = 0) :
    ∃ w' c', w.step wire principal runId (.deliver (c.bytes wire).length) = some w' ∧ w'.connection = some c' ∧
      c'.stream = c.stream ∧ c'.taken = (c'.bytes wire).length := by
  let fed := c.reader.feed (((c.bytes wire).drop c.taken).take (c.bytes wire).length)
  let c' : Connection κ α := { c with taken := c.taken + (c.bytes wire).length, reader := fed.1 }
  have hall : c.taken + (c.bytes wire).length ≤ (c.bytes wire).length := by omega
  refine ⟨{ w with client := fed.2.foldl wire.onFrame w.client, connection := some c' }, c', ?_, rfl, rfl, ?_⟩
  · simp only [RunSubscription.step, hc, bind_some, if_pos hall]
    rfl
  · exact (congrArg (· + _) htaken).trans (Nat.zero_add _)

variable (wire principal runId) in
theorem exists_round (hc : w.connection = some c) (hlisting : c.stream.step = .listing) (htaken : c.taken = 0) :
    ∃ round w' c', (∀ a ∈ round, a.cuts = false ∧ a.isCall = false) ∧
      Machine.exec (RunSubscription.step wire principal runId) w (.list :: round) = some w' ∧
      w'.connection = some c' ∧ c'.stream.step.isYielding = false ∧ c'.taken = (c'.bytes wire).length := by
  have hlist : w.step wire principal runId .list = some { w with connection := some { c with
      stream := { c.stream with step := .yielding (w.repo.listEvents runId c.stream.cursor) } } } := by
    simp [RunSubscription.step, RunSubscription.onConnection, hc, Connection.list, RunStream.list, hlisting]
  obtain ⟨d, hnext, hreading, hzero⟩ := exec_next wire principal runId _
    (w := { w with connection := some { c with
      stream := { c.stream with step := .yielding (w.repo.listEvents runId c.stream.cursor) } } }) rfl rfl
  obtain ⟨w', c', hdeliver, hc', hstream, hall⟩ := exists_delivery wire principal runId
    (w := { w with connection := some d }) rfl (hzero.trans htaken)
  refine ⟨List.replicate ((w.repo.listEvents runId c.stream.cursor).length + 1) .next ++
    [.deliver (d.bytes wire).length], w', c', ?_, ?_, hc', ?_, hall⟩
  · intro a ha
    obtain ha | ha := mem_append.mp ha
    · rw [eq_of_mem_replicate ha]
      exact ⟨rfl, rfl⟩
    · rw [mem_singleton.mp ha]
      exact ⟨rfl, rfl⟩
  · rw [Machine.exec, hlist, bind_some, Machine.exec_append, hnext, bind_some, Machine.exec]
    exact bind_eq_some_iff.mpr ⟨w', hdeliver, rfl⟩
  · rw [hstream, hreading]
    rfl

theorem invariant_of_quiet (hi : SubscriptionInv wire principal runId start w)
    (hreadable : w.Readable wire principal runId) {as : List SubscriptionStep} (has : ∀ a ∈ as, a.isCall = false)
    (h : Machine.exec (RunSubscription.step wire principal runId) w as = some w') :
    SubscriptionInv wire principal runId start w' ∧ w'.repo = w.repo := by
  have hcalls : Machine.Along (RunSubscription.step wire principal runId) (fun _ a => a.isCall = false) w as :=
    Machine.along_of_forall as has w
  refine ⟨Machine.invariant_along (fun _ _ _ hinv hread hs => hinv.step hread hs) hi
    (along_readable hreadable has) h, Machine.invariant_along (I := fun w' => w'.repo = w.repo) ?_ rfl hcalls h⟩
  exact fun _ _ _ hrepo ha hs => (repo_kept ha hs).trans hrepo

theorem exists_catchUp (hi : SubscriptionInv wire principal runId start w) {run : Run}
    (hrun : w.repo.get runId = some run) (hreadable : w.Readable wire principal runId) :
    ∃ catchUp w', Machine.exec (RunSubscription.step wire principal runId) w catchUp = some w' ∧ w'.repo = w.repo ∧
      w'.client.handed = (wire.shown principal (w.repo.listEvents runId start)).map wire.data := by
  obtain ⟨cutting, hcut⟩ : ∃ cutting : List SubscriptionStep,
      Machine.exec (RunSubscription.step wire principal runId) w cutting = some { w with connection := none } := by
    cases hc : w.connection with
    | none => exact ⟨[], by rw [← hc]; rfl⟩
    | some c => exact ⟨[.drop], by simp [Machine.exec, RunSubscription.step, hc]⟩
  let cursor := wire.eventCursor (decimal w.client.cursor) w.client.cursor
  let w₁ : RunSubscription κ α δ := { w with connection := some { stream := { start := cursor, cursor := cursor } } }
  have hconnect : ({ w with connection := none } : RunSubscription κ α δ).step wire principal runId .connect =
      some w₁ := by
    simp [RunSubscription.step, hrun, w₁, cursor]
  have hi₁ : SubscriptionInv wire principal runId start w₁ := hi.cut.connect hconnect
  obtain ⟨round, w', c, hround, hexec, hc, hidle, hall⟩ := exists_round wire principal runId (w := w₁) rfl rfl rfl
  have hquiet : ∀ a ∈ SubscriptionStep.list :: round, a.isCall = false := by
    intro a ha
    obtain rfl | ha := mem_cons.mp ha
    · rfl
    · exact (hround a ha).2
  obtain ⟨hi', hrepo⟩ := invariant_of_quiet hi₁ hreadable hquiet hexec
  have hrepo : w'.repo = w.repo := hrepo
  have hreadable₁ : w₁.Readable wire principal runId := hreadable
  have hlow := round_handed hi₁ (fun a ha => (hround a ha).1) (along_readable hreadable₁ hquiet) hexec hc hidle hall
  have hrun' : w'.repo.get runId = some run := hrepo ▸ hrun
  obtain ⟨got, hgot, hhanded, -, -⟩ := (hi'.handed run hrun').front (hi'.ordered run hrun')
  rw [hrepo] at hgot
  refine ⟨cutting ++ .connect :: .list :: round, w', ?_, hrepo, ?_⟩
  · rw [Machine.exec_append, hcut, bind_some, Machine.exec, hconnect, bind_some, hexec]
  · rw [hhanded] at hlow ⊢
    exact (hgot.map wire.data).eq_of_length_le hlow.length_le

end Rounds

/-- Along every run whose visible events the client can read back, what has been handed over is the
front of the visible log, once each and in order; the cursor stands at the last event handed over; and
a round that nothing cuts, from a listing to the last byte, hands over all that the log then shows. -/
theorem RunSubscription.events_once {start : Nat} {actions : List SubscriptionStep} {w : RunSubscription κ α δ}
    (h : Machine.exec (RunSubscription.step wire principal runId) { client := { cursor := start } } actions = some w)
    (hreadable : Machine.Along (RunSubscription.step wire principal runId)
      (fun w _ => w.Readable wire principal runId) { client := { cursor := start } } actions) :
    (∃ got, got <+: wire.shown principal (w.repo.listEvents runId start) ∧ w.client.handed = got.map wire.data ∧
      w.client.cursor = (got.getLast?.map (·.sequence)).getD start ∧
      got.Pairwise fun a b => a.sequence < b.sequence) ∧
    (∀ run, w.repo.get runId = some run → start = 0 → w.repo.listEvents runId start = w.repo.eventsOf runId) ∧
    (∀ round w' c, (∀ a ∈ round, a.cuts = false) →
      Machine.Along (RunSubscription.step wire principal runId)
        (fun w _ => w.Readable wire principal runId) w (.list :: round) →
      Machine.exec (RunSubscription.step wire principal runId) w (.list :: round) = some w' →
      w'.connection = some c → c.stream.step.isYielding = false → c.taken = (c.bytes wire).length →
      (wire.shown principal (w.repo.listEvents runId start)).map wire.data <+: w'.client.handed) ∧
    ∀ run, w.repo.get runId = some run → w.Readable wire principal runId →
      ∃ catchUp w', Machine.exec (RunSubscription.step wire principal runId) w catchUp = some w' ∧
        w'.repo = w.repo ∧
        w'.client.handed = (wire.shown principal (w.repo.listEvents runId start)).map wire.data := by
  have hinv : SubscriptionInv wire principal runId start w :=
    Machine.invariant_along (fun _ _ _ hi hread hs => hi.step hread hs) .initial hreadable h
  refine ⟨?_, ?_, ?_, fun run hrun hread => exists_catchUp hinv hrun hread⟩
  · cases hrun : w.repo.get runId with
    | some run => exact (hinv.handed run hrun).front (hinv.ordered run hrun)
    | none =>
      rw [(hinv.missing hrun).1]
      exact ⟨[], nil_prefix, rfl, rfl, .nil⟩
  · rintro run hrun rfl
    exact filter_eq_self.mpr fun e he => decide_eq_true (hinv.positive run hrun e he)
  · intro round w' c hcuts hread hexec hc hidle hall
    exact round_handed hinv hcuts hread hexec hc hidle hall

end Subscription

/-! A wire for runs of two events. -/

def escaped (text : List Char) : List Char :=
  text.flatMap fun c => if c = '\n' then ['\\', 'n'] else if c = '\r' then ['\\', 'r'] else [c]

/-- `{"sequence":n,"type":t}`. -/
def dumpsNote (d : Nat × List Char) : List Char :=
  ['{', '"', 's', 'e', 'q', 'u', 'e', 'n', 'c', 'e', '"', ':'] ++ decimal d.1 ++
    [',', '"', 't', 'y', 'p', 'e', '"', ':', '"'] ++ escaped d.2 ++ ['"', '}']

theorem dumpsNote_escapes (d : Nat × List Char) : '\n' ∉ dumpsNote d ∧ '\r' ∉ dumpsNote d := by
  have hescaped : ∀ c : Char, c = '\n' ∨ c = '\r' → c ∉ escaped d.2 := by
    intro c hc
    simp only [escaped, mem_flatMap, not_exists, not_and]
    intro x _
    split
    · obtain rfl | rfl := hc <;> decide
    · split
      · obtain rfl | rfl := hc <;> decide
      next hn hr =>
        rw [mem_singleton]
        rintro rfl
        exact hc.elim hn hr
  have hn := not_mem_decimal (n := d.1) (c := '\n') (by decide)
  have hr := not_mem_decimal (n := d.1) (c := '\r') (by decide)
  exact ⟨by simp [dumpsNote, hn, hescaped], by simp [dumpsNote, hr, hescaped]⟩

def digits? (text : List Char) : Option Int :=
  if text.all Char.isDigit && !text.isEmpty then some (Nat.ofDigitChars 10 text 0 : Int) else none

theorem digits?_decimal (n : Nat) : digits? (decimal n) = some (n : Int) := by
  have hall : (decimal n).all Char.isDigit = true :=
    List.all_eq_true.mpr fun c hc => Nat.isDigit_of_mem_toDigits (by decide) (by decide) hc
  have hne : (decimal n).isEmpty = false := by simp [decimal]
  rw [digits?, hall, hne, decimal, Nat.ofDigitChars_ten_toDigits]
  rfl

/-- Of an event, its sequence and its type; what is read back is one of the first two with one of these types. -/
def noteWire (types : List (List Char)) : EventWire Nat Int (Nat × List Char) where
  redaction := .plainRedaction
  stored event := {
    id := event.id, threadId := event.threadId, workspaceId := event.workspaceId, runId := event.runId
    ownerUserId := event.ownerUserId, actorUserId := event.actorUserId, sequence := event.sequence
    threadSequence := event.threadSequence, eventType := event.eventType, summary := event.summary
    visibility := event.visibility, startedAt := event.startedAt, completedAt := event.completedAt, createdAt := 0 }
  stored_activity _ := rfl
  data event := (event.sequence, event.eventType.toList)
  dumps := dumpsNote
  dumps_ne _ := by simp [dumpsNote]
  dumps_escapes := dumpsNote_escapes
  parse text := ([1, 2].flatMap fun n => types.map fun type => (n, type)).find? fun d => dumpsNote d = text
  sequence? d := some (some (d.1 : Int))
  number := digits?
  number_decimal n _ := digits?_decimal n
  int? := digits?
  int?_decimal := digits?_decimal

def noted (id eventType : String) : SubscriptionStep :=
  .call (.appendEvent { id, threadId := "t", workspaceId := "w", runId := some (newId "run" .nil), eventType })

def submitted : SubscriptionStep :=
  .call (.submit {
    runHex := .nil, attemptHex := .nil, threadId := "t", workspaceId := "w", requestedByUserId := "u"
    missionId := none, maxAttempts := ⟨3, three_attempts⟩, startedAt := 0 })

abbrev plainWire : EventWire Nat Int (Nat × List Char) := noteWire ["run.note".toList]

abbrev typedWire : EventWire Nat Int (Nat × List Char) := noteWire ["run.note".toList, "run.note\nid: 99".toList]

/-- The first connection breaks in the frame of the second event. -/
def brokenOff : List SubscriptionStep :=
  [submitted, noted "e1" "run.note", noted "e2" "run.note", .connect, .list, .next, .next, .deliver 80, .drop, .connect]

theorem RunSubscription.events_once_brokenOff : ∃ w,
    Machine.exec (RunSubscription.step plainWire requester (newId "run" .nil)) { client := { cursor := 0 } }
      brokenOff = some w ∧ w.client.cursor = 1 ∧
    ∃ got, got <+: plainWire.shown requester (w.repo.listEvents (newId "run" .nil) 0) ∧
      w.client.handed = got.map plainWire.data ∧
      w.client.cursor = (got.getLast?.map (·.sequence)).getD 0 ∧ got.Pairwise fun a b => a.sequence < b.sequence := by
  have h : (Machine.exec (RunSubscription.step plainWire requester (newId "run" .nil))
      { client := { cursor := 0 } } brokenOff).any (fun w => w.client.cursor = 1) = true := by decide +kernel
  obtain ⟨w, hw, hcursor⟩ := (Option.any_eq_true _ _).mp h
  exact ⟨w, hw, of_decide_eq_true hcursor, (RunSubscription.events_once _ _ _ hw (by decide +kernel)).1⟩

/-- The type of the first event carries an id, and the client comes back behind the second event. -/
def typeWithId : List SubscriptionStep :=
  [submitted, noted "e1" "run.note\nid: 99", noted "e2" "run.note", .connect, .list, .next, .deliver 77, .drop, .connect]

theorem RunSubscription.event_skipped : ∃ w w' c,
    Machine.exec (RunSubscription.step typedWire requester (newId "run" .nil)) { client := { cursor := 0 } }
      typeWithId = some w ∧
    Machine.exec (RunSubscription.step typedWire requester (newId "run" .nil)) w [.list, .next] = some w' ∧
    w'.connection = some c ∧ c.stream.step.isYielding = false ∧ c.taken = (c.bytes typedWire).length ∧
    w'.client.handed.length < (w.repo.eventsOf (newId "run" .nil)).length ∧
    ¬(typedWire.shown requester (w.repo.listEvents (newId "run" .nil) 0)).map typedWire.data <+: w'.client.handed := by
  have h : (Machine.exec (RunSubscription.step typedWire requester (newId "run" .nil)) { client := { cursor := 0 } }
      typeWithId).any (fun w =>
        (Machine.exec (RunSubscription.step typedWire requester (newId "run" .nil)) w [.list, .next]).any fun w' =>
          w'.connection.any fun c => !c.stream.step.isYielding && c.taken = (c.bytes typedWire).length &&
            w'.client.handed.length < (w.repo.eventsOf (newId "run" .nil)).length &&
            !((typedWire.shown requester (w.repo.listEvents (newId "run" .nil) 0)).map typedWire.data <+:
              w'.client.handed)) = true := by decide
  obtain ⟨w, hw, h⟩ := (Option.any_eq_true _ _).mp h
  obtain ⟨w', hw', h⟩ := (Option.any_eq_true _ _).mp h
  obtain ⟨c, hc, h⟩ := (Option.any_eq_true _ _).mp h
  simp only [Bool.and_eq_true, Bool.not_eq_true', decide_eq_true_eq, decide_eq_false_iff_not] at h
  obtain ⟨⟨⟨hidle, hall⟩, hfewer⟩, hmissing⟩ := h
  exact ⟨w, w', c, hw, hw', hc, hidle, hall, hfewer, hmissing⟩

end SelericSwarm
