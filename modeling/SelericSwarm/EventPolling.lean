import SelericSwarm.OfficeStream
import SelericSwarm.Polling

/-! `filter_events` over event dicts of any kind, and a client that polls one event list behind the last
sequence it has been given. -/
open List

namespace SelericSwarm

/-- `seq` is what `int(source.get("seq") or 0)` does; a family that is no text counts as none, and `rest` are the
other entries. -/
structure EventDict (δ : Type) where
  seq : SeqValue
  family : String := ""
  kind : String := ""
  rest : δ
  deriving DecidableEq

namespace EventDict
variable {δ : Type}

/-- `{**source, "seq": cursor}`. -/
def withSeq (event : EventDict δ) (cursor : Int) : EventDict δ := { event with seq := .number cursor }

def number (event : EventDict δ) : Int := event.seq.int?.getD 0

def position (event : EventDict δ) : Nat := event.number.toNat

/-- The entries but for the sequence. -/
def body (event : EventDict δ) : String × String × δ := (event.family, event.kind, event.rest)

/-- The family that is asked for leaves the event out. -/
def hidden (family : Option String) (event : EventDict δ) : Bool :=
  (truthy family).any fun family => event.family ≠ family && !(family ++ "_").isPrefixOf event.kind

end EventDict

namespace EventPolling
variable {δ : Type} (family : Option String) (afterSeq limit : Int)

/-- The loop of `filter_events`; an infinite sequence raises. -/
def filterFrom (cursor : Int) (out : List (EventDict δ)) : List (EventDict δ) → Option (List (EventDict δ))
  | [] => some out
  | source :: sources => source.seq.repaired?.bind fun seq =>
    let cursor := max (cursor + 1) seq
    let event := source.withSeq cursor
    if cursor ≤ afterSeq then filterFrom cursor out sources
    else if event.hidden family then filterFrom cursor out sources
    else
      let out := out ++ [event]
      if max 1 limit ≤ (out.length : Int) then some out else filterFrom cursor out sources

def filterEvents (events : List (EventDict δ)) : Option (List (EventDict δ)) := filterFrom family afterSeq limit 0 [] events

/-- A client; `ended` says that the last answer was empty. -/
structure Client (δ : Type) where
  events : List (EventDict δ)
  afterSeq : Int := 0
  received : List (EventDict δ) := []
  ended : Bool := false

inductive Step (δ : Type) where
  | grow (more : List (EventDict δ))
  | poll

def step (family : Option String) (limit : Int) (w : Client δ) : Step δ → Option (Client δ)
  | .grow more => some { w with events := w.events ++ more, ended := false }
  | .poll => (filterEvents family w.afterSeq limit w.events).map fun answer =>
    { w with
      afterSeq := (answer.getLast?.map EventDict.number).getD w.afterSeq
      received := w.received ++ answer
      ended := answer.isEmpty }

/-- What a run appends. -/
def grown (steps : List (Step δ)) : List (EventDict δ) :=
  steps.flatMap fun | .grow more => more | .poll => []

/-! The numbers. -/

def numbered (cursor : Int) : List (EventDict δ) → List (EventDict δ)
  | [] => []
  | source :: sources =>
    let cursor := max (cursor + 1) (source.seq.repaired?.getD 0)
    source.withSeq cursor :: numbered cursor sources

/-- The events a client is to be given. -/
def matching (events : List (EventDict δ)) : List (EventDict δ) :=
  (numbered 0 events).filter fun event => !event.hidden family

section Numbers
variable {cursor : Int} {sources : List (EventDict δ)}

theorem numbered_body (sources : List (EventDict δ)) : ∀ cursor,
    (numbered cursor sources).map EventDict.body = sources.map EventDict.body := by
  induction sources with
  | nil => exact fun _ => rfl
  | cons source sources ih =>
    intro cursor
    rw [numbered, map_cons, map_cons, ih]
    rfl

theorem numbered_append (sources more : List (EventDict δ)) : ∀ cursor,
    ∃ cursor', numbered cursor (sources ++ more) = numbered cursor sources ++ numbered cursor' more := by
  induction sources with
  | nil => exact fun cursor => ⟨cursor, rfl⟩
  | cons source sources ih =>
    intro cursor
    obtain ⟨cursor', h⟩ := ih (max (cursor + 1) (source.seq.repaired?.getD 0))
    exact ⟨cursor', congrArg (List.cons _) h⟩

theorem numbered_pairwise (sources : List (EventDict δ)) : ∀ cursor,
    (cursor :: (numbered cursor sources).map EventDict.number).Pairwise (· < ·) := by
  induction sources with
  | nil => exact fun cursor => pairwise_singleton _ _
  | cons source sources ih =>
    intro cursor
    have hlt : cursor < max (cursor + 1) (source.seq.repaired?.getD 0) := by omega
    have hrest := ih (max (cursor + 1) (source.seq.repaired?.getD 0))
    refine pairwise_cons.mpr ⟨fun n hn => ?_, hrest⟩
    obtain rfl | hn := mem_cons.mp hn
    · exact hlt
    · have hlater := (pairwise_cons.mp hrest).1 n hn
      omega

theorem numbered_seq (sources : List (EventDict δ)) : ∀ cursor, ∀ event ∈ numbered cursor sources,
    event.seq = .number event.number := by
  induction sources with
  | nil => exact fun _ => nofun
  | cons source sources ih =>
    intro cursor event hevent
    obtain rfl | hevent := mem_cons.mp hevent
    · rfl
    · exact ih _ event hevent

theorem numbered_eq_self (events : List (EventDict δ)) : ∀ cursor,
    (cursor :: events.map EventDict.number).Pairwise (· < ·) →
    (∀ event ∈ events, event.seq = .number event.number) → numbered cursor events = events := by
  induction events with
  | nil => exact fun _ _ _ => rfl
  | cons event events ih =>
    intro cursor hrising hseq
    obtain ⟨hfirst, hrest⟩ := pairwise_cons.mp hrising
    have hown := hseq event mem_cons_self
    have hcursor : max (cursor + 1) (event.seq.repaired?.getD 0) = event.number := by
      have hlt : cursor < event.number := hfirst _ mem_cons_self
      have hrepaired : event.seq.repaired?.getD 0 = event.number := by
        rw [hown]
        rfl
      omega
    have hsame : event.withSeq event.number = event := by
      rw [EventDict.withSeq, ← hown]
    rw [numbered, hcursor, hsame, ih _ hrest fun other hother => hseq other (mem_cons_of_mem event hother)]

theorem rising_numbered (events : List (EventDict δ)) : Polling.Rising EventDict.position (numbered 0 events) := by
  obtain ⟨hpos, hrising⟩ := pairwise_cons.mp (numbered_pairwise events 0)
  have hpositive : ∀ event ∈ numbered 0 events, 0 < event.number := fun event hevent => hpos _ (List.mem_map_of_mem hevent)
  refine ⟨(pairwise_map.mp hrising).imp_of_mem fun {a b} ha hb hab => ?_, fun event hevent => ?_⟩
  · have hpa := hpositive a ha
    have hpb := hpositive b hb
    simp only [EventDict.position]
    omega
  · have hp := hpositive event hevent
    simp only [EventDict.position]
    omega

theorem rising_matching (events : List (EventDict δ)) : Polling.Rising EventDict.position (matching family events) :=
  (rising_numbered events).filter _

end Numbers
/-! Answers. -/

/-- No sequence is infinite. -/
def Finite (events : List (EventDict δ)) : Prop := ∀ event ∈ events, event.seq ≠ .infinite

instance (events : List (EventDict δ)) : Decidable (Finite events) := inferInstanceAs (Decidable (∀ _ ∈ _, _))

def due (event : EventDict δ) : Bool := afterSeq < event.number && !event.hidden family

theorem repaired_of_finite {seq : SeqValue} (h : seq ≠ .infinite) : seq.repaired? = some (seq.repaired?.getD 0) := by
  cases seq with
  | infinite => exact absurd rfl h
  | _ => rfl

theorem filterFrom_eq (sources : List (EventDict δ)) (h : Finite sources) : ∀ cursor out,
    out.length < (max 1 limit).toNat → filterFrom family afterSeq limit cursor out sources =
      some (out ++ ((numbered cursor sources).filter (due family afterSeq)).take ((max 1 limit).toNat - out.length)) := by
  induction sources with
  | nil =>
    intro cursor out _
    simp [filterFrom, numbered]
  | cons source sources ih =>
    intro cursor out hroom
    have ih := ih fun event hevent => h event (mem_cons_of_mem source hevent)
    rw [filterFrom, repaired_of_finite (h source mem_cons_self), Option.bind_some, numbered]
    generalize max (cursor + 1) (source.seq.repaired?.getD 0) = cursor
    have hnumber : (source.withSeq cursor).number = cursor := rfl
    dsimp only
    by_cases hafter : cursor ≤ afterSeq
    · have hdue : ¬due family afterSeq (source.withSeq cursor) = true := by simp [due, hnumber, hafter]
      rw [if_pos hafter, ih _ _ hroom, filter_cons_of_neg hdue]
    · rw [if_neg hafter]
      by_cases hhidden : (source.withSeq cursor).hidden family = true
      · have hdue : ¬due family afterSeq (source.withSeq cursor) = true := by simp [due, hhidden]
        rw [if_pos hhidden, ih _ _ hroom, filter_cons_of_neg hdue]
      · have hdue : due family afterSeq (source.withSeq cursor) = true := by
          simp [due, hnumber, hhidden, lt_of_not_ge hafter]
        have hleft : (max 1 limit).toNat - out.length = (max 1 limit).toNat - (out.length + 1) + 1 := by omega
        rw [if_neg hhidden, filter_cons_of_pos hdue, hleft, take_succ_cons, length_append,
          length_singleton]
        split
        · next hfull =>
          have hnone : (max 1 limit).toNat - (out.length + 1) = 0 := by omega
          rw [hnone, take_zero]
        · next hmore =>
          have hroom' : (out ++ [source.withSeq cursor]).length < (max 1 limit).toNat := by
            rw [length_append, length_singleton]
            omega
          rw [ih _ _ hroom', length_append, length_singleton, append_assoc, singleton_append]

theorem filterEvents_eq {events : List (EventDict δ)} (h : Finite events) :
    filterEvents family afterSeq limit events =
      some (((numbered 0 events).filter (due family afterSeq)).take (max 1 limit).toNat) := by
  have hroom : 0 < (max 1 limit).toNat := by omega
  rw [filterEvents, filterFrom_eq family afterSeq limit events h 0 [] hroom]
  rfl

theorem filterFrom_infinite (sources : List (EventDict δ)) : ∀ cursor out,
    ((out.length + sources.length : Nat) : Int) < max 1 limit → ¬Finite sources →
      filterFrom family afterSeq limit cursor out sources = none := by
  induction sources with
  | nil => exact fun _ _ _ h => absurd nofun h
  | cons source sources ih =>
    intro cursor out hroom h
    rw [length_cons] at hroom
    rw [filterFrom]
    cases hseq : source.seq.repaired? with
    | none => rfl
    | some seq =>
      have hsource : source.seq ≠ .infinite := by
        intro heq
        rw [heq] at hseq
        cases hseq
      have hrest : ¬Finite sources := by
        intro hfinite
        refine h fun event hevent => ?_
        obtain rfl | hevent := mem_cons.mp hevent
        · exact hsource
        · exact hfinite event hevent
      have hskip (cursor : Int) : filterFrom family afterSeq limit cursor out sources = none :=
        ih cursor out (by omega) hrest
      rw [Option.bind_some]
      dsimp only
      split
      · exact hskip _
      · split
        · exact hskip _
        · rw [length_append, length_singleton, if_neg (by omega)]
          refine ih _ _ ?_ hrest
          rw [length_append, length_singleton]
          omega

/-! Clients. -/

section Clients
variable {family} {limit}

variable (family) in
/-- What a client has received is the front of what it is to be given, up to the sequence it asks behind. -/
structure Follows (w : Client δ) : Prop where
  finite : Finite w.events
  received : w.received <+: matching family w.events
  after : w.afterSeq = (Polling.last EventDict.position w.received : Int)
  ended : w.ended = true → w.received = matching family w.events

variable {w w' : Client δ}

theorem number_eq_position {events : List (EventDict δ)} {event : EventDict δ} (h : event ∈ numbered 0 events) :
    event.number = (event.position : Int) := by
  have hpos := (rising_numbered events).pos event h
  simp only [EventDict.position] at hpos ⊢
  omega

theorem Follows.answer (h : Follows family w) {rest : List (EventDict δ)}
    (hrest : matching family w.events = w.received ++ rest) :
    filterEvents family w.afterSeq limit w.events = some (rest.take (max 1 limit).toNat) := by
  have hrising := rising_matching family w.events
  rw [hrest] at hrising
  have hdue : (numbered 0 w.events).filter (due family w.afterSeq) =
      Polling.unseen EventDict.position w.received (matching family w.events) := by
    rw [Polling.unseen, matching, List.filter_filter]
    refine filter_congr fun event hevent => ?_
    rw [due, h.after, number_eq_position hevent]
    simp
  rw [filterEvents_eq family w.afterSeq limit h.finite, hdue, hrest, hrising.unseen_eq]

theorem Follows.poll (h : Follows family w) : ∃ w', step family limit w .poll = some w' ∧ Follows family w' ∧
    w'.events = w.events ∧ (w'.ended = true ∨ w.received.length < w'.received.length) := by
  obtain ⟨rest, hrest⟩ := h.received
  have hroom : 0 < (max 1 limit).toNat := by omega
  have hstep : step family limit w .poll = some
      { w with
        afterSeq := ((rest.take (max 1 limit).toNat).getLast?.map EventDict.number).getD w.afterSeq
        received := w.received ++ rest.take (max 1 limit).toNat
        ended := (rest.take (max 1 limit).toNat).isEmpty } := by
    rw [step, h.answer hrest.symm]
    rfl
  refine ⟨_, hstep, ⟨h.finite, ?_, ?_, fun hended => ?_⟩, rfl, ?_⟩
  · refine ⟨rest.drop (max 1 limit).toNat, ?_⟩
    rw [append_assoc, take_append_drop]
    exact hrest
  · dsimp only
    obtain hnone | ⟨front, last, hanswer⟩ := (rest.take (max 1 limit).toNat).eq_nil_or_concat'
    · rw [hnone, append_nil]
      exact h.after
    · have hlast : last ∈ numbered 0 w.events := by
        have hmem : last ∈ matching family w.events := by
          rw [← hrest]
          refine mem_append_right _ (mem_of_mem_take (i := (max 1 limit).toNat) ?_)
          rw [hanswer]
          exact mem_concat_self
        exact (mem_filter.mp hmem).1
      rw [hanswer, ← append_assoc, Polling.last_concat, List.getLast?_concat]
      exact number_eq_position hlast
  · have hnil : rest.take (max 1 limit).toNat = [] := List.isEmpty_iff.mp hended
    have hempty : rest = [] := by
      cases rest with
      | nil => rfl
      | cons event rest =>
        obtain ⟨room, hroom'⟩ := Nat.exists_eq_succ_of_ne_zero (Nat.pos_iff_ne_zero.mp hroom)
        rw [hroom'] at hnil
        cases hnil
    dsimp only
    rw [← hrest, hempty, take_nil]
  · dsimp only
    cases hanswer : rest.take (max 1 limit).toNat with
    | nil => exact Or.inl rfl
    | cons event answer =>
      right
      rw [length_append, length_cons]
      omega

theorem Follows.grow (h : Follows family w) {more : List (EventDict δ)} (hmore : Finite more) :
    Follows family { w with events := w.events ++ more, ended := false } where
  finite event hevent := by
    obtain hold | hnew := mem_append.mp hevent
    · exact h.finite event hold
    · exact hmore event hnew
  received := by
    obtain ⟨cursor, hnumbered⟩ := numbered_append w.events more 0
    refine h.received.trans ?_
    rw [matching, matching, hnumbered, filter_append]
    exact prefix_append _ _
  after := h.after
  ended := nofun

/-- A run that appends no infinite sequence goes through, and keeps the client informed. -/
theorem Follows.run (steps : List (Step δ)) : ∀ {w : Client δ}, Follows family w → Finite (grown steps) →
    ∃ w', Machine.exec (step family limit) w steps = some w' ∧ Follows family w' ∧
      w'.events = w.events ++ grown steps := by
  induction steps with
  | nil => exact fun {w} h _ => ⟨w, rfl, h, (append_nil _).symm⟩
  | cons a steps ih =>
    intro w h hfinite
    cases a with
    | grow more =>
      have hgrown : grown (.grow more :: steps) = more ++ grown steps := rfl
      rw [hgrown] at hfinite ⊢
      obtain ⟨w', hrun, hfollows, hevents⟩ := ih (h.grow fun event hevent => hfinite event (mem_append_left _ hevent))
        fun event hevent => hfinite event (mem_append_right _ hevent)
      refine ⟨w', hrun, hfollows, ?_⟩
      rw [hevents, append_assoc]
    | poll =>
      obtain ⟨w₁, hstep, hfollows, hsame, -⟩ := h.poll
      obtain ⟨w', hrun, hfollows', hevents⟩ := ih hfollows hfinite
      refine ⟨w', ?_, hfollows', hsame ▸ hevents⟩
      rw [Machine.exec, hstep]
      exact hrun

theorem Follows.finish (missing : Nat) : ∀ {w : Client δ}, Follows family w →
    (matching family w.events).length ≤ w.received.length + missing →
    ∃ polls w', Machine.exec (step family limit) w (List.replicate (polls + 1) .poll) = some w' ∧ w'.ended = true ∧
      w'.received = matching family w.events := by
  induction missing with
  | zero =>
    intro w h hall
    obtain ⟨w', hstep, hfollows, hsame, hended | hmore⟩ := h.poll
    · exact ⟨0, w', by rw [replicate_one, Machine.exec, hstep]; rfl, hended, hsame ▸ hfollows.ended hended⟩
    · have hle := hfollows.received.length_le
      rw [hsame] at hle
      omega
  | succ missing ih =>
    intro w h hall
    obtain ⟨w₁, hstep, hfollows, hsame, hended | hmore⟩ := h.poll
    · exact ⟨0, w₁, by rw [replicate_one, Machine.exec, hstep]; rfl, hended, hsame ▸ hfollows.ended hended⟩
    · obtain ⟨polls, w', hrun, hended, hreceived⟩ := ih hfollows (by rw [hsame]; omega)
      refine ⟨polls + 1, w', ?_, hended, hsame ▸ hreceived⟩
      rw [replicate_succ, Machine.exec, hstep]
      exact hrun

end Clients

/-- What is to hold of an event list: rising numbers from 1 on that later events do not change, answers that are cut
from the numbered list and stay as they are, and clients that are given every matching event once, in order. -/
structure Exact (events : List (EventDict δ)) : Prop where
  bodies : (numbered 0 events).map EventDict.body = events.map EventDict.body
  rising : Polling.Rising EventDict.position (numbered 0 events)
  appended : ∀ more, numbered 0 events <+: numbered 0 (events ++ more)
  answers : ∀ family afterSeq limit, filterEvents family afterSeq limit events =
    some (((numbered 0 events).filter (due family afterSeq)).take (max 1 limit).toNat)
  again : ∀ family afterSeq limit out, filterEvents family afterSeq limit events = some out →
    ∀ limit', (out.length : Int) ≤ limit' → filterEvents none 0 limit' out = some out
  polled : ∀ family limit start steps, start ++ grown steps = events →
    ∃ w, Machine.exec (step family limit) { events := start } steps = some w ∧ w.received <+: matching family events ∧
      (w.ended = true → w.received = matching family events) ∧
      ∃ polls w', Machine.exec (step family limit) w (List.replicate (polls + 1) .poll) = some w' ∧ w'.ended = true ∧
        w'.received = matching family events

/-- Event polling is exact as long as no sequence is infinite. -/
theorem exact_iff_finite (events : List (EventDict δ)) : Exact events ↔ Finite events := by
  constructor
  · intro h
    by_contra hinfinite
    have hanswer := h.answers none 0 (events.length + 1)
    rw [filterEvents, filterFrom_infinite none 0 _ events 0 [] ?_ hinfinite] at hanswer
    · cases hanswer
    · rw [length_nil, Nat.zero_add]
      omega
  · intro h
    refine ⟨numbered_body events 0, rising_numbered events, fun more => ?_, fun family afterSeq limit =>
      filterEvents_eq family afterSeq limit h, fun family afterSeq limit out hout limit' hlimit => ?_,
      fun family limit start steps hevents => ?_⟩
    · obtain ⟨cursor, hnumbered⟩ := numbered_append events more 0
      rw [hnumbered]
      exact prefix_append _ _
    · rw [filterEvents_eq family afterSeq limit h] at hout
      have hsub : out.Sublist (numbered 0 events) := by
        rw [← Option.some.inj hout]
        exact (take_sublist _ _).trans filter_sublist
      have hseq : ∀ event ∈ out, event.seq = .number event.number := fun event hevent =>
        numbered_seq events 0 event (hsub.subset hevent)
      have hrising : (0 :: out.map EventDict.number).Pairwise (· < ·) :=
        (numbered_pairwise events 0).sublist ((hsub.map EventDict.number).cons_cons 0)
      have hfinite : Finite out := by
        intro event hevent heq
        rw [hseq event hevent] at heq
        cases heq
      have hdue : ∀ event ∈ out, due none 0 event = true := by
        intro event hevent
        have hpos := (pairwise_cons.mp hrising).1 _ (List.mem_map_of_mem hevent)
        simp [due, EventDict.hidden, truthy, hpos]
      rw [filterEvents_eq none 0 limit' hfinite, numbered_eq_self out 0 hrising hseq, filter_eq_self.mpr hdue,
        take_of_length_le (by omega)]
    · have hstart : Follows family ({ events := start } : Client δ) := by
        refine ⟨fun event hevent => h event ?_, nil_prefix, rfl, nofun⟩
        rw [← hevents]
        exact mem_append_left _ hevent
      have hgrown : Finite (grown steps) := by
        intro event hevent
        refine h event ?_
        rw [← hevents]
        exact mem_append_right _ hevent
      obtain ⟨w, hrun, hfollows, hall⟩ := hstart.run steps hgrown
      have hsame : w.events = events := hall.trans hevents
      obtain ⟨polls, w', hpolls, hended, hreceived⟩ := hfollows.finish _ (Nat.le_add_left _ _)
      rw [hsame] at hreceived
      exact ⟨w, hrun, hsame ▸ hfollows.received, hsame ▸ hfollows.ended, polls, w', hpolls, hended, hreceived⟩

/-- `int(float("inf"))` raises an OverflowError, which is not among the errors that are caught. -/
theorem infinite_not_exact : filterEvents none 0 500 [({ seq := .infinite, rest := () } : EventDict Unit)] = none ∧
    ¬Exact [({ seq := .infinite, rest := () } : EventDict Unit)] := by
  have hraised : filterEvents none 0 500 [({ seq := .infinite, rest := () } : EventDict Unit)] = none := rfl
  refine ⟨hraised, fun h => ?_⟩
  have hanswer := h.answers none 0 500
  rw [hraised] at hanswer
  cases hanswer

def ofMission (event : MissionEvent) : EventDict Unit where
  seq := .number event.seq
  family := event.family
  kind := event.kind
  rest := ()

theorem numbered_ofMission (events : List MissionEvent) : ∀ cursor,
    numbered cursor (events.map ofMission) = (numberEvents cursor events).map ofMission := by
  induction events with
  | nil => exact fun _ => rfl
  | cons event events ih => exact fun cursor => congrArg (List.cons _) (ih _)

theorem due_ofMission (event : MissionEvent) : due family afterSeq (ofMission event) = (decide (afterSeq < event.seq) &&
    (truthy family).all fun family => event.family = family || (family ++ "_").isPrefixOf event.kind) := by
  have hnumber : (ofMission event).number = event.seq := rfl
  have hhidden : (ofMission event).hidden family = (truthy family).any fun family =>
      event.family ≠ family && !(family ++ "_").isPrefixOf event.kind := rfl
  rw [due, hnumber, hhidden]
  cases truthy family with
  | none => rfl
  | some name => simp

theorem filterEvents_ofMission (events : List MissionEvent) : filterEvents family afterSeq limit (events.map ofMission) =
    some ((SelericSwarm.filterEvents events family afterSeq limit).map ofMission) := by
  have hfinite : Finite (events.map ofMission) := by
    intro event hevent
    obtain ⟨source, -, rfl⟩ := List.mem_map.mp hevent
    exact nofun
  rw [filterEvents_eq family afterSeq limit hfinite, numbered_ofMission, SelericSwarm.filterEvents, List.filter_map,
    map_take]
  have hfilter := filter_congr (l := numberEvents 0 events) fun event _ => due_ofMission family afterSeq event
  exact congrArg (fun l => some ((l.map ofMission).take (max 1 limit).toNat)) hfilter

end EventPolling
end SelericSwarm
