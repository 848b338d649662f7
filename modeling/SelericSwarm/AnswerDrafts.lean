import Mathlib.Data.List.Induction
import SelericSwarm.ConversationMessages

/-! The draft of one streamed answer: what the model has written, and what the message list shows. -/
namespace SelericSwarm.Drafts
open Keyed List Option

/-- What an event is to the draft of one message. -/
inductive Entry
  | delta (text : String)
  | reset
  | quiet

def ActivityEvent.entry (event : ActivityEvent) : Entry :=
  if event.isReset then .reset
  else if event.isDraft then .delta ((optionalString event.payload.delta).getD "")
  else .quiet

/-- The deltas since the last reset, once there is an answer at all. -/
def Entry.write (text : Option String) : Entry → Option String
  | .delta d => some (text.getD "" ++ d)
  | .reset => some ""
  | .quiet => text

def written (entries : List Entry) : Option String := entries.foldl Entry.write none

/-- The same through `messageText`, which takes `start` from the message that is there already. -/
def Entry.render (start : String) (text : Option String) : Entry → Option String
  | .delta d => some ((text.map trim).getD start ++ d)
  | .reset => some ""
  | .quiet => text

def rendered (start : String) (entries : List Entry) : Option String := entries.foldl (Entry.render start) none

/-- Nothing of the text before a delta is lost. -/
def Keeps (start : String) : Option String → Prop
  | none => start = ""
  | some text => trim text = text

theorem written_concat (entries : List Entry) (entry : Entry) :
    written (entries ++ [entry]) = entry.write (written entries) := by
  simp [written]

theorem rendered_concat (start : String) (entries : List Entry) (entry : Entry) :
    rendered start (entries ++ [entry]) = entry.render start (rendered start entries) := by
  simp [rendered]

theorem append_left_cancel {a b d : String} (h : a ++ d = b ++ d) : a = b := by
  have htext := congrArg String.toList h
  rw [String.toList_append, String.toList_append] at htext
  exact String.toList_inj.mp (append_cancel_right htext)

variable {text : Option String}

theorem render_eq_write {start : String} {d : String} :
    Entry.render start text (.delta d) = Entry.write text (.delta d) ↔ Keeps start text := by
  cases text with
  | none =>
    simp only [Entry.render, Entry.write, map_none, getD_none, Option.some.injEq, Keeps]
    exact ⟨append_left_cancel, fun h => by rw [h]⟩
  | some t =>
    simp only [Entry.render, Entry.write, map_some, getD_some, Option.some.injEq, Keeps]
    exact ⟨append_left_cancel, fun h => by rw [h]⟩

/-- The list shows what was written all along exactly when no delta finds a text that it loses some of. -/
theorem rendered_eq_written (start : String) (entries : List Entry) :
    (∀ before, before <+: entries → rendered start before = written before) ↔
      ∀ before d, before ++ [.delta d] <+: entries → Keeps start (written before) := by
  constructor
  · intro h before d hb
    have hnow := h before ((prefix_append before _).trans hb)
    have hthen := h _ hb
    rw [rendered_concat, written_concat, hnow] at hthen
    exact render_eq_write.mp hthen
  · intro h before
    induction before using List.reverseRecOn with
    | nil => intro _; rfl
    | append_singleton before entry ih =>
      intro hb
      have hprev := ih ((prefix_append before _).trans hb)
      rw [rendered_concat, written_concat, hprev]
      cases entry with
      | delta d => exact render_eq_write.mpr (h before d hb)
      | reset => rfl
      | quiet => rfl

/-! One event. -/

variable {s s₀ : Store} {event : ActivityEvent} {arrivals : List Arrival} {id thread now : String}

/-- An event of the stream of one answer, or one that carries no answer. -/
def Streams (s : Store) (thread id : String) (event : ActivityEvent) : Prop :=
  if event.isDraft then
    event.threadId = thread ∧ s.Accepts event ∧ optionalString event.payload.messageId = some id ∧
      (event.isReset ∨ (optionalString event.payload.delta).isSome)
  else optionalString event.payload.finalResponse = none

def own (id : String) (list : List Message) : List Message := list.filter (·.id = id)

def others (id : String) (list : List Message) : List Message := list.filter (·.id ≠ id)

/-- The text that the first message with the id would give to a delta. -/
def start (s : Store) (thread id : String) : String := messageText ((s.list thread).find? (·.id = id))

theorem find?_own (list : List Message) : list.find? (·.id = id) = (own id list).head? := by
  rw [own, List.head?_filter]

section
variable (message : Message) (list : List Message)
include message list

theorem others_map :
    others message.id (list.map fun m => if m.id = message.id then message else m) = others message.id list := by
  induction list with
  | nil => rfl
  | cons m list ih =>
    unfold others at ih ⊢
    by_cases hm : m.id = message.id
    · simpa [filter_cons, hm] using ih
    · simpa [filter_cons, hm] using ih

theorem own_map :
    own message.id (list.map fun m => if m.id = message.id then message else m) =
      List.replicate (own message.id list).length message := by
  induction list with
  | nil => rfl
  | cons m list ih =>
    unfold own at ih ⊢
    by_cases hm : m.id = message.id
    · simpa [filter_cons, hm, replicate_succ] using ih
    · simpa [filter_cons, hm] using ih

theorem others_place : others message.id (place message list) = others message.id list := by
  unfold place
  split
  · exact others_map message list
  · simp [others]

theorem own_place :
    own message.id (place message list) = List.replicate (max 1 (own message.id list).length) message := by
  unfold place
  split
  next h =>
    rw [own_map]
    have hpos : 1 ≤ (own message.id list).length := by
      rw [find?_own, isSome_head?] at h
      exact length_pos_iff.mpr (by simpa using h)
    rw [max_eq_right hpos]
  next h =>
    have hnil : own message.id list = [] := by simpa [find?_own] using h
    have happ : own message.id (list ++ [message]) = own message.id list ++ [message] := by simp [own]
    rw [happ, hnil]
    rfl

end

theorem applyDraft_eq (now : String) (h : Streams s thread id event) (hd : event.isDraft) : ∃ message : Message,
    message.id = id ∧ message.role = .assistant ∧
      message.parts = [⟨.text, .text (if event.isReset then "" else start s thread id ++ (optionalString event.payload.delta).getD "")⟩] ∧
      s.applyDraft now event = { s with messages := s.messages.set thread (place message (s.list thread)) } := by
  simp only [Streams, hd, if_true] at h
  obtain ⟨rfl, _, hid, hdelta⟩ := h
  cases hr : event.isReset with
  | true =>
    exact ⟨streamed now event id "" ((s.list event.threadId).find? (·.id = id)), rfl, rfl, rfl, by
      simp [Store.applyDraft, hid, hr]⟩
  | false =>
    obtain ⟨d, hd⟩ := isSome_iff_exists.mp (hdelta.resolve_left (by simp [hr]))
    have hne := optionalString_ne hd
    exact ⟨streamed now event id (start s event.threadId id ++ d) ((s.list event.threadId).find? (·.id = id)),
      rfl, rfl, by simp [streamed, hd], by simp [Store.applyDraft, hid, hr, hd, hne, start]⟩

theorem applyOther_quiet (h : optionalString event.payload.finalResponse = none) :
    (s.applyOther event).messages = s.messages ∧ (s.applyOther event).selectedThreadId = s.selectedThreadId ∧
      ((s.applyOther event).currentRunId = s.currentRunId ∨ (s.applyOther event).currentRunId = none) := by
  unfold Store.applyOther
  simp only [h]
  refine ⟨?_, ?_, ?_⟩
  · split_ifs <;> rfl
  · split_ifs <;> rfl
  · split_ifs <;> simp

/-! A run of events. -/

/-- Where `s` stands against `s₀` when the message with the id shows `text`. -/
structure Shows (s₀ : Store) (thread id : String) (text : Option String) (s : Store) : Prop where
  selected : s.selectedThreadId = s₀.selectedThreadId
  follows : s.currentRunId = s₀.currentRunId ∨ s.currentRunId = none
  elsewhere : ∀ t, t ≠ thread → s.list t = s₀.list t
  others : others id (s.list thread) = others id (s₀.list thread)
  untouched : text = none → s.list thread = s₀.list thread
  own : ∀ t, text = some t → ∃ message : Message, message.role = .assistant ∧ message.parts = [⟨.text, .text t⟩] ∧
    own id (s.list thread) = List.replicate (max 1 (own id (s₀.list thread)).length) message

theorem Shows.initial : Shows s₀ thread id none s₀ :=
  ⟨rfl, Or.inl rfl, fun _ _ => rfl, rfl, fun _ => rfl, fun _ h => by cases h⟩

theorem Shows.accepts (h : Shows s₀ thread id text s) (ha : s₀.Accepts event) : s.Accepts event := by
  refine ⟨h.selected.trans ha.1, ?_⟩
  obtain hr | hr := h.follows
  · rw [hr]; exact ha.2
  · exact Or.inl (by rw [hr]; rfl)

theorem Shows.start_eq (h : Shows s₀ thread id text s) :
    start s thread id = (text.map trim).getD (start s₀ thread id) := by
  cases text with
  | none => simp [start, h.untouched rfl]
  | some t =>
    obtain ⟨message, _, hparts, hown⟩ := h.own t rfl
    rw [start, find?_own, hown, List.head?_replicate, if_neg (by omega)]
    exact messageText_text message t hparts

theorem list_set (messages : List Message) (t : String) :
    Store.list { s with messages := s.messages.set thread messages } t = if thread = t then messages else s.list t := by
  simp only [Store.list, Dict.getD_set]

theorem Shows.placed {t : String} (h : Shows s₀ thread id text s) (message : Message) (hid : message.id = id)
    (hrole : message.role = .assistant) (hparts : message.parts = [⟨.text, .text t⟩]) :
    Shows s₀ thread id (some t)
      { s with messages := s.messages.set thread (place message (s.list thread)) } := by
  subst hid
  refine ⟨h.selected, h.follows, ?_, ?_, by simp, ?_⟩
  · intro u hu
    rw [list_set, if_neg (Ne.symm hu)]
    exact h.elsewhere u hu
  · rw [list_set, if_pos rfl, others_place]
    exact h.others
  · intro u hu
    cases hu
    refine ⟨message, hrole, hparts, ?_⟩
    rw [list_set, if_pos rfl, own_place]
    cases text with
    | none => rw [h.untouched rfl]
    | some v =>
      obtain ⟨_, _, _, hown⟩ := h.own v rfl
      rw [hown, length_replicate, ← max_assoc, max_self]

/-- One event moves the text shown as `render` says. -/
theorem Shows.step (h : Shows s₀ thread id text s) (hs : Streams s₀ thread id event) :
    Shows s₀ thread id (event.entry.render (start s₀ thread id) text) (s.applyRunEvent now event) := by
  cases hd : event.isDraft with
  | true =>
    have hs' : Streams s thread id event := by
      simp only [Streams, hd, if_true] at hs ⊢
      exact ⟨hs.1, h.accepts hs.2.1, hs.2.2⟩
    have haccepts : s.Accepts event := by
      simp only [Streams, hd, if_true] at hs'
      exact hs'.2.1
    obtain ⟨message, hid, hrole, hparts, heq⟩ := applyDraft_eq now hs' hd
    have hrender : event.entry.render (start s₀ thread id) text =
        some (if event.isReset then "" else start s thread id ++ (optionalString event.payload.delta).getD "") := by
      cases hr : event.isReset with
      | true => simp [ActivityEvent.entry, hr, Entry.render]
      | false => simp [ActivityEvent.entry, hr, hd, Entry.render, h.start_eq]
    have happly : s.applyRunEvent now event = s.applyDraft now event := by
      simp [Store.applyRunEvent, haccepts, hd]
    rw [hrender, happly, heq]
    exact h.placed message hid hrole hparts
  | false =>
    have hquiet : event.entry = .quiet := by
      have hr : event.isReset = false := by
        simp only [ActivityEvent.isDraft, Bool.or_eq_false_iff] at hd
        exact hd.2
      simp [ActivityEvent.entry, hr, hd]
    simp only [Streams, hd, Bool.false_eq_true, if_false] at hs
    obtain ⟨hm, hsel, hrun⟩ := applyOther_quiet (s := s) hs
    have hlist : ∀ t, (s.applyOther event).list t = s.list t := fun t => by rw [Store.list, hm]; rfl
    rw [hquiet]
    change Shows s₀ thread id text _
    by_cases ha : s.Accepts event
    · have happly : s.applyRunEvent now event = s.applyOther event := by
        simp [Store.applyRunEvent, ha, hd]
      rw [happly]
      refine ⟨hsel.trans h.selected, ?_, ?_, ?_, ?_, ?_⟩
      · obtain hr | hr := hrun
        · rw [hr]; exact h.follows
        · exact Or.inr hr
      · intro t ht
        rw [hlist]
        exact h.elsewhere t ht
      · rw [hlist]
        exact h.others
      · rw [hlist]
        exact h.untouched
      · rw [hlist]
        exact h.own
    · have happly : s.applyRunEvent now event = s := by simp [Store.applyRunEvent, ha]
      rw [happly]
      exact h

theorem Shows.run (h : ∀ arrival ∈ arrivals, Streams s₀ thread id arrival.event) :
    Shows s₀ thread id (rendered (start s₀ thread id) (arrivals.map (·.event.entry))) (s₀.applyAll arrivals) := by
  induction arrivals using List.reverseRecOn with
  | nil => exact Shows.initial
  | append_singleton arrivals arrival ih =>
    rw [map_append, map_singleton, rendered_concat, Store.applyAll_concat]
    have hprev := ih fun a ha => h a (mem_append_left _ ha)
    exact hprev.step (h arrival (by simp))

/-! The law. -/

/-- `s` has the one message of the answer with `text` for its own, and every other as in `s₀`. -/
structure Drafted (s₀ : Store) (thread id : String) (text : Option String) (s : Store) : Prop where
  elsewhere : ∀ t, t ≠ thread → s.list t = s₀.list t
  others : Drafts.others id (s.list thread) = Drafts.others id (s₀.list thread)
  own : ∀ t, text = some t → ∃ message : Message, message.role = .assistant ∧
    message.parts = [⟨.text, .text t⟩] ∧ Drafts.own id (s.list thread) = [message]

theorem Shows.drafted_iff {shown : Option String} (h : Shows s₀ thread id shown s)
    (hsome : shown.isSome = text.isSome) :
    Drafted s₀ thread id text s ↔
      shown = text ∧ (text ≠ none → (Drafts.own id (s₀.list thread)).length ≤ 1) := by
  cases text with
  | none =>
    have hnone : shown = none := by simpa using hsome
    exact ⟨fun _ => ⟨hnone, by simp⟩, fun _ => ⟨h.elsewhere, h.others, by simp⟩⟩
  | some t =>
    obtain ⟨u, rfl⟩ := isSome_iff_exists.mp (hsome.trans rfl)
    obtain ⟨message, hrole, hparts, hown⟩ := h.own u rfl
    constructor
    · intro hd
      obtain ⟨message', _, hparts', hown'⟩ := hd.own t rfl
      have hlen := congrArg List.length (hown.symm.trans hown')
      have hone : max 1 (Drafts.own id (s₀.list thread)).length = 1 := by simpa using hlen
      rw [hone, hown'] at hown
      have hm : message' = message := by simpa using hown
      rw [hm, hparts] at hparts'
      refine ⟨?_, fun _ => by omega⟩
      simpa using hparts'
    · rintro ⟨ht, hle⟩
      have hone : max 1 (Drafts.own id (s₀.list thread)).length = 1 := by
        have := hle (by simp)
        omega
      refine ⟨h.elsewhere, h.others, ?_⟩
      intro v hv
      refine ⟨message, hrole, ?_, ?_⟩
      · rw [hparts, Option.some.inj (ht.trans hv)]
      · rw [hown, hone]
        rfl

theorem isSome_render (start : String) (text text' : Option String) (entry : Entry) (h : text.isSome = text'.isSome) :
    (entry.render start text).isSome = (entry.write text').isSome := by
  cases entry with
  | delta d => rfl
  | reset => rfl
  | quiet => exact h

theorem isSome_rendered (start : String) (entries : List Entry) :
    (rendered start entries).isSome = (written entries).isSome := by
  induction entries using List.reverseRecOn with
  | nil => rfl
  | append_singleton entries entry ih =>
    rw [rendered_concat, written_concat]
    exact isSome_render start _ _ entry ih

def entries (arrivals : List Arrival) : List Entry := arrivals.map (·.event.entry)

theorem written_ne_none {before all : List Entry} (hp : before <+: all) (h : written before ≠ none) : written all ≠ none := by
  obtain ⟨rest, rfl⟩ := hp
  induction rest using List.reverseRecOn with
  | nil => simpa using h
  | append_singleton rest entry ih =>
    rw [← append_assoc, written_concat]
    cases entry with
    | delta d => simp [Entry.write]
    | reset => simp [Entry.write]
    | quiet => exact ih

/-- The streamed draft is what the model wrote exactly when the message that is there already is
the only one of its id and adds nothing, and no delta follows a text with white space at an end. -/
theorem streamed_draft_iff (h : ∀ arrival ∈ arrivals, Streams s₀ thread id arrival.event) :
    (∀ before, before <+: arrivals → Drafted s₀ thread id (written (entries before)) (s₀.applyAll before)) ↔
      (written (entries arrivals) ≠ none → (own id (s₀.list thread)).length ≤ 1) ∧
        ∀ before d, before ++ [.delta d] <+: entries arrivals → Keeps (start s₀ thread id) (written before) := by
  have hdrafted : ∀ before, before <+: arrivals →
      (Drafted s₀ thread id (written (entries before)) (s₀.applyAll before) ↔
        rendered (start s₀ thread id) (entries before) = written (entries before) ∧
          (written (entries before) ≠ none → (own id (s₀.list thread)).length ≤ 1)) := by
    intro before hb
    exact (Shows.run fun a ha => h a (hb.subset ha)).drafted_iff (isSome_rendered _ _)
  rw [← rendered_eq_written]
  constructor
  · intro hlaw
    refine ⟨((hdrafted _ (prefix_refl _)).mp (hlaw _ (prefix_refl _))).2, ?_⟩
    intro before hb
    obtain ⟨arrived, harrived, rfl⟩ := prefix_map_iff.mp hb
    exact ((hdrafted arrived harrived).mp (hlaw arrived harrived)).1
  · rintro ⟨hone, htexts⟩ before hb
    have hentries : entries before <+: entries arrivals := hb.map _
    exact (hdrafted before hb).mpr ⟨htexts _ hentries, fun hne => hone (written_ne_none hentries hne)⟩

def openThread : Store := { selectedThreadId := some "t", currentRunId := some "r" }

def deltaOf (text : String) : Arrival :=
  { now := "2026-07-22T10:00:00Z"
    event :=
      { id := text
        threadId := "t"
        workspaceId := "w"
        runId := some "r"
        eventType := "answer.delta"
        summary := none
        payload := { messageId := .string "m", delta := .string text }
        createdAt := "2026-07-22T10:00:00Z" } }

theorem streams_deltaOf (text : String) (h : text ≠ "") : Streams openThread "t" "m" (deltaOf text).event := by
  simp [Streams, ActivityEvent.isDraft, deltaOf, Store.Accepts, openThread, optionalString, h]

theorem streamed_draft_greeting :
    (∀ arrival ∈ [deltaOf "Hello", deltaOf " world"], Streams openThread "t" "m" arrival.event) ∧
      ∀ before, before <+: [deltaOf "Hello", deltaOf " world"] →
        Drafted openThread "t" "m" (written (entries before)) (openThread.applyAll before) := by
  have hstreams : ∀ arrival ∈ [deltaOf "Hello", deltaOf " world"], Streams openThread "t" "m" arrival.event := by
    intro arrival ha
    simp only [mem_cons, not_mem_nil, or_false] at ha
    obtain rfl | rfl := ha
    · exact streams_deltaOf _ (by decide)
    · exact streams_deltaOf _ (by decide)
  refine ⟨hstreams, (streamed_draft_iff hstreams).mpr ⟨by decide, ?_⟩⟩
  intro before d hb
  have hentries : entries [deltaOf "Hello", deltaOf " world"] = [.delta "Hello", .delta " world"] := rfl
  rw [hentries] at hb
  match before, hb with
  | [], _ => exact (by decide : start openThread "t" "m" = "")
  | [entry], hb =>
    obtain ⟨rfl, _⟩ : entry = .delta "Hello" ∧ d = " world" := by simpa using hb
    exact (by decide +kernel : trim "Hello" = "Hello")
  | _ :: _ :: _, hb => simpa using hb.length_le

/-- The space between the words comes at the end of a delta. -/
theorem space_lost : ¬ ∀ (s₀ : Store) (thread id : String) (arrivals : List Arrival),
    (∀ arrival ∈ arrivals, Streams s₀ thread id arrival.event) →
    ∀ before, before <+: arrivals → Drafted s₀ thread id (written (entries before)) (s₀.applyAll before) := by
  intro h
  have hlaw := h openThread "t" "m" [deltaOf "Hello ", deltaOf "world"] (by
    intro arrival ha
    simp only [mem_cons, not_mem_nil, or_false] at ha
    obtain rfl | rfl := ha
    · exact streams_deltaOf _ (by decide)
    · exact streams_deltaOf _ (by decide)) _ (prefix_refl _)
  obtain ⟨message, _, hparts, hown⟩ := hlaw.own "Hello world" (by decide +kernel)
  have hmem : message ∈ (openThread.applyAll [deltaOf "Hello ", deltaOf "world"]).list "t" :=
    (mem_filter.mp (hown ▸ mem_singleton.mpr rfl : message ∈ own "m" _)).1
  have hshown : ∀ m ∈ (openThread.applyAll [deltaOf "Hello ", deltaOf "world"]).list "t",
      m.parts = [⟨.text, .text "Helloworld"⟩] := by decide +kernel
  have hboth := hparts.symm.trans (hshown message hmem)
  simp at hboth

end SelericSwarm.Drafts
