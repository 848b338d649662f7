import SelericSwarm.Identifiers
import SelericSwarm.MissionStore

/-! The office gateway: the events of a mission as the office shows them, and the stream
that polls them, next to the event list of the mission API. -/
open List Option

namespace SelericSwarm
open Keyed Machine

/-- What `int(event.get("seq") or 0)` does: a number, a TypeError or ValueError, an OverflowError. -/
inductive SeqValue where
  | number (n : Int)
  | malformed
  | infinite
  deriving DecidableEq

namespace SeqValue

def int? : SeqValue → Option Int
  | .number n => some n
  | _ => none

/-- `filter_events` counts what is no number as 0. -/
def repaired? : SeqValue → Option Int
  | .number n => some n
  | .malformed => some 0
  | .infinite => none

end SeqValue

structure OfficeEvent where
  seq : SeqValue
  kind : Option String := none
  legacyKind : Option String := none
  family : Option String := none
  taskId : Option String := none
  claimRefs : List String := []
  artifactRefs : List String := []
  deriving DecidableEq

structure OfficeRaw where
  status : Option String := none
  finalResponse : Option String := none
  evidence : List Evidence := []
  limitations : List String := []
  events : List OfficeEvent := []

def kindToUi : List (String × String) :=
  [("mission_created", "mission_started"), ("mission_completed", "mission_completed"),
    ("mission_partial", "mission_partial"), ("mission_budget_exhausted", "mission_blocked"),
    ("mission_cancelled", "mission_completed"), ("mission_failed", "error"),
    ("mission_accepted", "mission_created"), ("decomposition_created", "decomposition_created"),
    ("decomposition_refined", "decomposition_refined"), ("task_plan_created", "task_created"),
    ("task_wave_executed", "task_started"), ("task_specialists_activated", "agent_started"),
    ("leadership_transfer", "leadership_transferred"), ("leadership_rejected", "leadership_transfer_rejected"),
    ("claim_proposed", "artifact_created"), ("claim_validated", "skeptic_pass"),
    ("claim_challenged", "skeptic_revise"), ("claim_rejected", "skeptic_reject"),
    ("skeptic_gate", "skeptic_review_started"), ("skeptic_pass", "skeptic_pass"),
    ("skeptic_revise", "skeptic_revise"), ("skeptic_reject", "skeptic_reject"),
    ("remediation_planned", "remediation_created"), ("remediation_activated", "task_assigned"),
    ("remediation_round_done", "task_completed"), ("specialist_error", "error"),
    ("evidence_requested", "evidence_requested"), ("evidence_received", "evidence_received")]

/-- `str(event.get("kind") or event.get("legacy_kind") or "")`. -/
def OfficeEvent.anyKind (event : OfficeEvent) : String :=
  ((truthy event.kind).or (truthy event.legacyKind)).getD ""

/-- What the client gets of an event; its agent, texts and metadata come from `source`. -/
structure UiEvent where
  eventId : String
  seq : Int
  missionId : String
  taskId : Option String
  eventType : String
  artifactRefs : List String
  source : OfficeEvent

def uiEvent (missionId : String) (entry : Int × OfficeEvent) : UiEvent where
  eventId := missionId ++ ":" ++ toString entry.1
  seq := entry.1
  missionId := missionId
  taskId := entry.2.taskId
  eventType := (kindToUi.lookup entry.2.anyKind).getD
    (if entry.2.anyKind = "" then "unknown" else entry.2.anyKind)
  artifactRefs := if entry.2.claimRefs = [] then entry.2.artifactRefs else entry.2.claimRefs
  source := entry.2

def lastEntrySeq (entries : List (Int × OfficeEvent)) : Int := (entries.getLast?.map Prod.fst).getD 0

/-- Every event with its sequence, unless one has none. -/
def withSeqs : List OfficeEvent → Option (List (Int × OfficeEvent))
  | [] => some []
  | event :: events => event.seq.int?.bind fun seq => (withSeqs events).map ((seq, event) :: ·)

def bySeq (a b : Int × OfficeEvent) : Bool := decide (a.1 ≤ b.1)

/-- `sorted(events, key=lambda e: int(e.get("seq") or 0))`. -/
def sortedEvents (events : List OfficeEvent) : Option (List (Int × OfficeEvent)) :=
  (withSeqs events).map (·.mergeSort bySeq)

def normalizeEvents (missionId : String) (events : List OfficeEvent) (afterSeq : Int) : Option (List UiEvent) :=
  (sortedEvents events).map fun entries =>
    (entries.filter fun entry => decide (afterSeq < entry.1)).map (uiEvent missionId)

structure OfficeSnapshot where
  status : String
  lastSeq : Int
  finalResponse : Option String
  limitations : List String
  timeline : List UiEvent

def buildOfficeSnapshot (missionId : String) (raw : OfficeRaw) : Option OfficeSnapshot :=
  (sortedEvents raw.events).bind fun entries =>
    (normalizeEvents missionId (entries.map Prod.snd) 0).map fun timeline =>
      { status := (truthy raw.status).getD "running"
        lastSeq := lastEntrySeq entries
        finalResponse := raw.finalResponse
        limitations := raw.limitations
        timeline }

structure OfficeDone where
  status : String
  lastSeq : Int
  finalResponse : String
  evidence : List Evidence
  limitations : List String

inductive OfficeMessage where
  | snapshot (snap : OfficeSnapshot)
  | event (event : UiEvent)
  | heartbeat (ts : Option String) (lastSeq : Int)
  | done (data : OfficeDone)

def OfficeMessage.event? : OfficeMessage → Option UiEvent
  | .event ue => some ue
  | _ => none

def OfficeMessage.isDone : OfficeMessage → Bool
  | .done _ => true
  | _ => false

/-- The generator of `office_stream` between two polls; `idle` counts seconds. -/
structure OfficeStream where
  raw : OfficeRaw
  cur : Option OfficeRaw := none
  lastSeq : Int := 0
  idle : Nat := 0
  sent : List OfficeMessage := []
  ended : Bool := false
  raised : Bool := false

/-- The statuses on which the stream ends. -/
def terminalStatuses : List String :=
  ["completed", "prototype_completed", "failed", "cancelled", "blocked", "partial"]

def OfficeRaw.terminal (raw : OfficeRaw) : Bool := ((truthy raw.status).getD "") ∈ terminalStatuses

namespace OfficeStream

/-- `gen` up to its first yield. -/
def connect (missionId : String) (raw : OfficeRaw) : OfficeStream :=
  match buildOfficeSnapshot missionId raw with
  | none => { raw, raised := true }
  | some snap => { raw, lastSeq := snap.lastSeq, sent := [.snapshot snap] }

/-- The new events of a poll and a snapshot, or a heartbeat after fifteen seconds without any. -/
def update (missionId : String) (s : OfficeStream) (cur : OfficeRaw) (seqs : List Int) : Option OfficeStream :=
  let fresh := seqs.filter fun seq => decide (s.lastSeq < seq)
  if fresh ≠ [] then
    (normalizeEvents missionId cur.events s.lastSeq).bind fun events =>
      (buildOfficeSnapshot missionId cur).map fun snap =>
        { s with
          lastSeq := fresh.max?.getD s.lastSeq
          idle := 0
          sent := s.sent ++ events.map .event ++ [.snapshot snap] }
  else if 15 ≤ s.idle + 1 then
    some { s with idle := 0, sent := s.sent ++ [.heartbeat cur.status s.lastSeq] }
  else some { s with idle := s.idle + 1 }

def finish (missionId : String) (s : OfficeStream) (cur : OfficeRaw) : Option OfficeStream :=
  if cur.terminal then
    (buildOfficeSnapshot missionId cur).map fun snap =>
      { s with
        sent := s.sent ++ [.snapshot snap, .done
          { status := (truthy cur.status).getD ""
            lastSeq := if snap.lastSeq = 0 then s.lastSeq else snap.lastSeq
            finalResponse := snap.finalResponse.getD ""
            evidence := cur.evidence
            limitations := snap.limitations }]
        ended := true }
  else some s

/-- One turn of the loop; nothing is sent in a turn that raises. -/
def poll (missionId : String) (s : OfficeStream) (cur : OfficeRaw) : Option OfficeStream :=
  (withSeqs cur.events).bind fun entries =>
    (update missionId { s with cur := some cur } cur (entries.map Prod.fst)).bind (finish missionId · cur)

def step (missionId : String) (s : OfficeStream) (cur : OfficeRaw) : Option OfficeStream :=
  if s.ended || s.raised then none
  else some ((s.poll missionId cur).getD { s with cur := some cur, raised := true })

/-- The payload that the stream has read last. -/
def observed (s : OfficeStream) : OfficeRaw := s.cur.getD s.raw

/-- The timeline of the first snapshot, then the events of the event messages. -/
def received (s : OfficeStream) : List UiEvent :=
  match s.sent with
  | .snapshot snap :: rest => snap.timeline ++ rest.filterMap OfficeMessage.event?
  | messages => messages.filterMap OfficeMessage.event?

end OfficeStream

/-! The event list of the mission API, each answer with the events it is made of. -/

/-- The loop of `filter_events` without a family; `room` is what is left of the limit. -/
def filterSources (afterSeq : Int) (room : Nat) (cursor : Int) : List OfficeEvent → Option (List (Int × OfficeEvent))
  | [] => some []
  | source :: sources => source.seq.repaired?.bind fun seq =>
    let cursor := max (cursor + 1) seq
    if cursor ≤ afterSeq then filterSources afterSeq room cursor sources
    else if room ≤ 1 then some [(cursor, source)]
    else (filterSources afterSeq (room - 1) cursor sources).map ((cursor, source) :: ·)

/-- A client that polls from sequence 0 on, always behind the last sequence it has seen. -/
def enumerated (limit : Int) (events : List OfficeEvent) : Nat → Option (List (Int × OfficeEvent))
  | 0 => some []
  | polls + 1 => (enumerated limit events polls).bind fun seen =>
    (filterSources (lastEntrySeq seen) (max 1 limit).toNat 0 events).map (seen ++ ·)

namespace OfficeStream

/-- What the client has received is what the event list tells, under identifiers of its own, and
the stream is over once a poll has found the mission at its end. -/
structure SameStory (s : OfficeStream) : Prop where
  raised : s.raised = false
  sources : ∀ limit, (enumerated limit s.observed.events s.observed.events.length).map (·.map Prod.snd) =
    some (s.received.map UiEvent.source)
  ids : (s.received.map UiEvent.eventId).Nodup
  ends : ∀ cur, s.cur = some cur → cur.terminal = true → ∃ front data, s.sent = front ++ [.done data]
  done : s.sent.countP OfficeMessage.isDone = if s.cur.any OfficeRaw.terminal then 1 else 0

end OfficeStream

/-- The sequences are numbers that rise from above 0. -/
def Ascending (events : List OfficeEvent) : Prop :=
  ∃ entries, withSeqs events = some entries ∧ (0 :: entries.map Prod.fst).Pairwise (· < ·)

/-! Entries under rising sequences. -/

theorem lastEntrySeq_append_cons (front : List (Int × OfficeEvent)) (entry : Int × OfficeEvent)
    (rest : List (Int × OfficeEvent)) : lastEntrySeq (front ++ entry :: rest) = lastEntrySeq (entry :: rest) := by
  simp only [lastEntrySeq, List.getLast?_append]
  rw [List.getLast?_cons, some_or]

variable {entries : List (Int × OfficeEvent)} {sources events : List OfficeEvent}

theorem le_lastEntrySeq (h : (0 :: entries.map Prod.fst).Pairwise (· < ·)) :
    0 ≤ lastEntrySeq entries ∧ ∀ entry ∈ entries, entry.1 ≤ lastEntrySeq entries := by
  obtain rfl | ⟨front, last, rfl⟩ := entries.eq_nil_or_concat'
  · simp [lastEntrySeq]
  · have hlast : lastEntrySeq (front ++ [last]) = last.1 := by simp [lastEntrySeq]
    rw [map_append, map_cons, map_nil, ← cons_append] at h
    have hbelow := (pairwise_append.mp h).2.2
    rw [hlast]
    refine ⟨(hbelow 0 mem_cons_self last.1 (by simp)).le, fun entry hentry => ?_⟩
    obtain hfront | hentry := mem_append.mp hentry
    · exact (hbelow entry.1 (mem_cons_of_mem _ (List.mem_map_of_mem hfront)) last.1 (by simp)).le
    · rw [mem_singleton.mp hentry]

theorem filter_behind (front rest : List (Int × OfficeEvent))
    (h : (0 :: (front ++ rest).map Prod.fst).Pairwise (· < ·)) :
    (front ++ rest).filter (fun entry => decide (lastEntrySeq front < entry.1)) = rest := by
  rw [map_append, ← cons_append] at h
  obtain ⟨hfront, -, hbelow⟩ := pairwise_append.mp h
  have hle := le_lastEntrySeq hfront
  have hlt : ∀ entry ∈ rest, lastEntrySeq front < entry.1 := by
    intro entry hentry
    have hfst : entry.1 ∈ rest.map Prod.fst := List.mem_map_of_mem hentry
    obtain rfl | ⟨front, last, rfl⟩ := front.eq_nil_or_concat'
    · exact hbelow 0 mem_cons_self _ hfst
    · rw [lastEntrySeq_append_cons]
      exact hbelow last.1 (by simp) _ hfst
  rw [filter_append, filter_eq_nil_iff.mpr, filter_eq_self.mpr, nil_append]
  · simpa using hlt
  · intro entry hentry
    simpa using hle.2 entry hentry

/-! What the event list tells. -/

def numberSources (cursor : Int) : List OfficeEvent → Option (List (Int × OfficeEvent))
  | [] => some []
  | source :: sources => source.seq.repaired?.bind fun seq =>
    let cursor := max (cursor + 1) seq
    (numberSources cursor sources).map ((cursor, source) :: ·)

theorem numberSources_cons {cursor : Int} {source : OfficeEvent}
    (h : numberSources cursor (source :: sources) = some entries) :
    ∃ seq rest, source.seq.repaired? = some seq ∧ numberSources (max (cursor + 1) seq) sources = some rest ∧
      entries = (max (cursor + 1) seq, source) :: rest := by
  obtain ⟨seq, hseq, h⟩ := bind_eq_some_iff.mp h
  obtain ⟨rest, hrest, rfl⟩ := map_eq_some_iff.mp h
  exact ⟨seq, rest, hseq, hrest, rfl⟩

theorem numberSources_sources : ∀ {cursor : Int} {entries : List (Int × OfficeEvent)},
    numberSources cursor sources = some entries → entries.map Prod.snd = sources := by
  induction sources with
  | nil =>
    intro cursor entries h
    obtain rfl := Option.some.inj h
    rfl
  | cons source sources ih =>
    intro cursor entries h
    obtain ⟨seq, rest, -, hrest, rfl⟩ := numberSources_cons h
    rw [map_cons, ih hrest]

theorem numberSources_pairwise :
    ∀ {cursor : Int} {entries : List (Int × OfficeEvent)},
      numberSources cursor sources = some entries → (cursor :: entries.map Prod.fst).Pairwise (· < ·) := by
  induction sources with
  | nil =>
    intro cursor entries h
    obtain rfl := Option.some.inj h
    exact pairwise_singleton _ _
  | cons source sources ih =>
    intro cursor entries h
    obtain ⟨seq, rest, -, hrest, rfl⟩ := numberSources_cons h
    have hlt : cursor < max (cursor + 1) seq := (Int.lt_succ cursor).trans_le (le_max_left _ _)
    refine pairwise_cons.mpr ⟨fun n hn => ?_, ih hrest⟩
    obtain rfl | hn := mem_cons.mp hn
    · exact hlt
    · exact hlt.trans ((pairwise_cons.mp (ih hrest)).1 n hn)

theorem exists_numberSources (h : ∀ source ∈ sources, source.seq.int?.isSome = true) :
    ∀ cursor, ∃ entries, numberSources cursor sources = some entries := by
  induction sources with
  | nil => exact fun cursor => ⟨[], rfl⟩
  | cons source sources ih =>
    intro cursor
    have hseq : ∃ seq, source.seq.repaired? = some seq := by
      cases hs : source.seq with
      | number n => exact ⟨n, rfl⟩
      | malformed => exact ⟨0, rfl⟩
      | infinite => simpa [hs, SeqValue.int?] using h source mem_cons_self
    obtain ⟨seq, hseq⟩ := hseq
    obtain ⟨rest, hrest⟩ := ih (fun s hs => h s (mem_cons_of_mem _ hs)) (max (cursor + 1) seq)
    exact ⟨(max (cursor + 1) seq, source) :: rest, by simp [numberSources, hseq, hrest]⟩

def OfficeEvent.missionEvent (event : OfficeEvent) : MissionEvent where
  kind := event.kind.getD ""
  family := event.family.getD ""
  seq := event.seq.repaired?.getD 0

theorem numberEvents_missionEvent :
    ∀ {cursor : Int} {entries : List (Int × OfficeEvent)}, numberSources cursor sources = some entries →
      numberEvents cursor (sources.map OfficeEvent.missionEvent) =
        entries.map fun entry => { entry.2.missionEvent with seq := entry.1 } := by
  induction sources with
  | nil =>
    intro cursor entries h
    obtain rfl := Option.some.inj h
    rfl
  | cons source sources ih =>
    intro cursor entries h
    obtain ⟨seq, rest, hseq, hrest, rfl⟩ := numberSources_cons h
    have hseq' : source.missionEvent.seq = seq := by rw [OfficeEvent.missionEvent, hseq, getD_some]
    rw [map_cons, numberEvents, hseq', map_cons, ih hrest]

theorem numberEvents_missionEvent_repaired :
    numberEvents 0 ([{ seq := .number 5 }, { seq := .malformed }].map OfficeEvent.missionEvent) =
      [(5, ({ seq := .number 5 } : OfficeEvent)), (6, { seq := .malformed })].map fun entry =>
        { entry.2.missionEvent with seq := entry.1 } :=
  numberEvents_missionEvent rfl

theorem filterSources_eq {afterSeq : Int} :
    ∀ {room : Nat} {cursor : Int} {entries : List (Int × OfficeEvent)}, numberSources cursor sources = some entries →
      filterSources afterSeq room cursor sources =
        some ((entries.filter fun entry => decide (afterSeq < entry.1)).take (max 1 room)) := by
  induction sources with
  | nil =>
    intro room cursor entries h
    obtain rfl := Option.some.inj h
    simp [filterSources]
  | cons source sources ih =>
    intro room cursor entries h
    obtain ⟨seq, rest, hseq, hrest, rfl⟩ := numberSources_cons h
    simp only [filterSources, hseq, bind_some]
    by_cases hafter : max (cursor + 1) seq ≤ afterSeq
    · rw [if_pos hafter, ih hrest, filter_cons_of_neg (by simpa using hafter)]
    · rw [if_neg hafter, filter_cons_of_pos (by simpa using not_le.mp hafter)]
      by_cases hroom : room ≤ 1
      · rw [if_pos hroom, max_eq_left hroom, take_succ_cons, take_zero]
      · obtain ⟨k, rfl⟩ : ∃ k, room = k + 1 := ⟨room - 1, by omega⟩
        have hk : 1 ≤ k := by omega
        rw [if_neg hroom, ih hrest, map_some, Nat.add_sub_cancel, max_eq_right hk,
          max_eq_right (Nat.le_succ_of_le hk), take_succ_cons]

theorem enumerated_eq {limit : Int} (h : numberSources 0 events = some entries) (polls : Nat) :
    enumerated limit events polls = some (entries.take (polls * (max 1 limit).toNat)) := by
  induction polls with
  | zero => simp [enumerated]
  | succ polls ih =>
    have hsplit := take_append_drop (polls * (max 1 limit).toNat) entries
    have hbehind := filter_behind (entries.take (polls * (max 1 limit).toNat))
      (entries.drop (polls * (max 1 limit).toNat)) (by rw [hsplit]; exact numberSources_pairwise h)
    have hroom : 1 ≤ (max 1 limit).toNat := by
      have := le_max_left 1 limit
      omega
    rw [hsplit] at hbehind
    rw [enumerated, ih, bind_some, filterSources_eq h, hbehind, map_some, Nat.succ_mul,
      take_add, max_eq_right hroom]

/-- A client that polls on enumerates the list as it stands. -/
theorem enumerated_sources {limit : Int} (h : numberSources 0 events = some entries) :
    (enumerated limit events events.length).map (·.map Prod.snd) = some events := by
  have hlength : entries.length = events.length := by rw [← numberSources_sources h, length_map]
  have hall : entries.length ≤ events.length * (max 1 limit).toNat := by
    rw [hlength]
    have := le_max_left 1 limit
    exact Nat.le_mul_of_pos_right _ (by omega)
  rw [enumerated_eq h, take_of_length_le hall, map_some, numberSources_sources h]

/-! What the office makes of a list of numbered events. -/

theorem withSeqs_eq_some_iff : ∀ {entries : List (Int × OfficeEvent)},
    withSeqs events = some entries ↔
      entries.map Prod.snd = events ∧ ∀ entry ∈ entries, entry.2.seq.int? = some entry.1 := by
  induction events with
  | nil =>
    intro entries
    cases entries <;> simp [withSeqs]
  | cons event events ih =>
    intro entries
    simp only [withSeqs, bind_eq_some_iff, map_eq_some_iff]
    constructor
    · rintro ⟨seq, hseq, rest, hrest, rfl⟩
      obtain ⟨hmap, hall⟩ := ih.mp hrest
      exact ⟨by rw [map_cons, hmap], by simpa [hseq] using hall⟩
    · rintro ⟨hmap, hall⟩
      cases entries with
      | nil => cases hmap
      | cons entry rest =>
        obtain ⟨rfl, hrest⟩ := List.cons.inj hmap
        obtain ⟨hentry, hall⟩ := forall_mem_cons.mp hall
        exact ⟨entry.1, hentry, rest, ih.mpr ⟨hrest, hall⟩, rfl⟩

theorem entries_eq {entries' : List (Int × OfficeEvent)} (h : ∀ entry ∈ entries, entry.2.seq.int? = some entry.1)
    (h' : ∀ entry ∈ entries', entry.2.seq.int? = some entry.1) (hmap : entries.map Prod.snd = entries'.map Prod.snd) :
    entries = entries' :=
  Option.some.inj ((withSeqs_eq_some_iff.mpr ⟨hmap, h⟩).symm.trans (withSeqs_eq_some_iff.mpr ⟨rfl, h'⟩))

theorem pairwise_mergeSort_bySeq (entries : List (Int × OfficeEvent)) :
    (entries.mergeSort bySeq).Pairwise fun a b => bySeq a b = true :=
  pairwise_mergeSort (by simp only [bySeq, decide_eq_true_eq]; exact fun a b c => le_trans)
    (by simpa [bySeq] using fun a _ b _ => le_total a b) entries

theorem mergeSort_of_rising (h : (entries.map Prod.fst).Pairwise (· < ·)) : entries.mergeSort bySeq = entries := by
  apply mergeSort_of_pairwise
  refine (pairwise_map.mp h).imp ?_
  intro a b hab
  simpa [bySeq] using hab.le

theorem sortedEvents_eq (h : withSeqs events = some entries) :
    sortedEvents events = some (entries.mergeSort bySeq) := by
  rw [sortedEvents, h]
  rfl

def behind (afterSeq : Int) (entries : List (Int × OfficeEvent)) : List (Int × OfficeEvent) :=
  (entries.mergeSort bySeq).filter fun entry => decide (afterSeq < entry.1)

theorem normalizeEvents_eq {missionId : String} (h : withSeqs events = some entries) (afterSeq : Int) :
    normalizeEvents missionId events afterSeq = some ((behind afterSeq entries).map (uiEvent missionId)) := by
  rw [normalizeEvents, sortedEvents_eq h]
  rfl

theorem buildOfficeSnapshot_eq (missionId : String) {raw : OfficeRaw} (h : withSeqs raw.events = some entries) :
    ∃ snap, buildOfficeSnapshot missionId raw = some snap ∧ snap.lastSeq = lastEntrySeq (entries.mergeSort bySeq) ∧
      snap.timeline = (behind 0 entries).map (uiEvent missionId) := by
  have hsorted : withSeqs ((entries.mergeSort bySeq).map Prod.snd) = some (entries.mergeSort bySeq) := by
    refine withSeqs_eq_some_iff.mpr ⟨rfl, fun entry hentry => ?_⟩
    exact (withSeqs_eq_some_iff.mp h).2 entry (mem_mergeSort.mp hentry)
  rw [buildOfficeSnapshot, sortedEvents_eq h, bind_some, normalizeEvents_eq hsorted, map_some]
  refine ⟨_, rfl, rfl, ?_⟩
  rw [behind, mergeSort_of_pairwise (pairwise_mergeSort_bySeq entries)]
  rfl

theorem behind_eq_nil_iff {afterSeq : Int} :
    behind afterSeq entries = [] ↔ (entries.map Prod.fst).filter (fun seq => decide (afterSeq < seq)) = [] := by
  simp [behind, filter_eq_nil_iff]

namespace OfficeStream
variable {missionId : String}

def Begun (s : OfficeStream) : Prop := ∃ snap rest, s.sent = .snapshot snap :: rest

variable {s t : OfficeStream} {cur : OfficeRaw} {entries : List (Int × OfficeEvent)}

theorem received_append (h : s.Begun) {more : List OfficeMessage} (ht : t.sent = s.sent ++ more) :
    t.received = s.received ++ more.filterMap OfficeMessage.event? := by
  obtain ⟨snap, rest, hsent⟩ := h
  simp [received, ht, hsent]

theorem filterMap_event (events : List UiEvent) :
    (events.map OfficeMessage.event).filterMap OfficeMessage.event? = events := by
  induction events with
  | nil => rfl
  | cons event events ih => simpa [OfficeMessage.event?] using ih

theorem countP_event (events : List UiEvent) : (events.map OfficeMessage.event).countP OfficeMessage.isDone = 0 := by
  simp [countP_eq_zero, OfficeMessage.isDone]

theorem update_eq (h : withSeqs cur.events = some entries) :
    ∃ t more, update missionId s cur (entries.map Prod.fst) = some t ∧ t.sent = s.sent ++ more ∧
      more.filterMap OfficeMessage.event? = (behind s.lastSeq entries).map (uiEvent missionId) ∧
      more.countP OfficeMessage.isDone = 0 ∧ t.ended = s.ended ∧ t.raised = s.raised ∧ t.raw = s.raw ∧ t.cur = s.cur ∧
      t.lastSeq = ((entries.map Prod.fst).filter fun seq => decide (s.lastSeq < seq)).max?.getD s.lastSeq := by
  by_cases hfresh : (entries.map Prod.fst).filter (fun seq => decide (s.lastSeq < seq)) = []
  · have hbehind := behind_eq_nil_iff.mpr hfresh
    unfold update
    simp only [hfresh, ne_eq, not_true_eq_false, if_false]
    split
    · exact ⟨_, [_], rfl, rfl, by simp [hbehind, OfficeMessage.event?], rfl, rfl, rfl, rfl, rfl, rfl⟩
    · exact ⟨_, [], rfl, by simp, by simp [hbehind], rfl, rfl, rfl, rfl, rfl, rfl⟩
  · obtain ⟨snap, hsnap, -, -⟩ := buildOfficeSnapshot_eq missionId h
    unfold update
    simp only [ne_eq, hfresh, not_false_eq_true, if_true, normalizeEvents_eq h, bind_some, hsnap,
      map_some]
    refine ⟨_, _, rfl, append_assoc _ _ _, ?_, ?_, rfl, rfl, rfl, rfl, rfl⟩
    · rw [filterMap_append, filterMap_event]
      exact append_nil _
    · rw [countP_append, countP_event]
      rfl

theorem finish_eq (h : withSeqs cur.events = some entries) :
    ∃ t more, finish missionId s cur = some t ∧ t.sent = s.sent ++ more ∧
      more.filterMap OfficeMessage.event? = [] ∧
      more.countP OfficeMessage.isDone = (if cur.terminal then 1 else 0) ∧
      (cur.terminal = true → ∃ snap data, more = [.snapshot snap, .done data]) ∧
      t.ended = (s.ended || cur.terminal) ∧ t.raised = s.raised ∧ t.raw = s.raw ∧ t.cur = s.cur ∧
      t.lastSeq = s.lastSeq := by
  unfold finish
  by_cases hterminal : cur.terminal = true
  · obtain ⟨snap, hsnap, -, -⟩ := buildOfficeSnapshot_eq missionId h
    rw [if_pos hterminal, hsnap]
    exact ⟨_, _, rfl, rfl, rfl, by simp [hterminal, OfficeMessage.isDone], fun _ => ⟨snap, _, rfl⟩,
      by simp [hterminal], rfl, rfl, rfl, rfl⟩
  · rw [if_neg hterminal]
    exact ⟨_, [], rfl, by simp, rfl, by simp [hterminal], fun hc => absurd hc hterminal, by simp [hterminal], rfl,
      rfl, rfl, rfl⟩

theorem poll_eq (missionId : String) (h : withSeqs cur.events = some entries) :
    ∃ t more, s.poll missionId cur = some t ∧ t.sent = s.sent ++ more ∧
      more.filterMap OfficeMessage.event? = (behind s.lastSeq entries).map (uiEvent missionId) ∧
      more.countP OfficeMessage.isDone = (if cur.terminal then 1 else 0) ∧
      (cur.terminal = true → ∃ front data, more = front ++ [.done data]) ∧
      t.ended = (s.ended || cur.terminal) ∧ t.raised = s.raised ∧ t.cur = some cur ∧
      t.lastSeq = ((entries.map Prod.fst).filter fun seq => decide (s.lastSeq < seq)).max?.getD s.lastSeq := by
  obtain ⟨u, new, hu, hsent, hevents, hdone, hended, hraised, -, hcur, hlast⟩ :=
    update_eq (s := { s with cur := some cur }) h
  obtain ⟨t, last, ht, hsent', hevents', hdone', hend, hended', hraised', -, hcur', hlast'⟩ := finish_eq (s := u) h
  refine ⟨t, new ++ last, ?_, ?_, ?_, ?_, ?_, ?_, hraised'.trans hraised, hcur'.trans hcur, hlast'.trans hlast⟩
  · rw [poll, h, bind_some, hu, bind_some, ht]
  · rw [hsent', hsent, append_assoc]
  · rw [filterMap_append, hevents, hevents', append_nil]
  · rw [countP_append, hdone, hdone', Nat.zero_add]
  · intro hterminal
    obtain ⟨snap, data, rfl⟩ := hend hterminal
    exact ⟨new ++ [.snapshot snap], data, by simp⟩
  · rw [hended', hended]

theorem poll_none (h : withSeqs cur.events = none) : s.poll missionId cur = none := by
  rw [poll, h]
  rfl

/-! The stream and the event list side by side. -/

/-- The stream stands at the end of a list of rising sequences. -/
structure InStep (missionId : String) (s : OfficeStream) : Prop where
  raised : s.raised = false
  begun : s.Begun
  entries : ∃ entries, withSeqs s.observed.events = some entries ∧ (0 :: entries.map Prod.fst).Pairwise (· < ·) ∧
    s.lastSeq = lastEntrySeq entries ∧ s.received = entries.map (uiEvent missionId)
  ended : s.ended = s.cur.any OfficeRaw.terminal
  last : s.ended = true → ∃ front data, s.sent = front ++ [.done data]
  done : s.sent.countP OfficeMessage.isDone = if s.ended then 1 else 0

theorem InStep.ascending (h : s.InStep missionId) : Ascending s.observed.events := by
  obtain ⟨entries, hentries, hrising, -, -⟩ := h.entries
  exact ⟨entries, hentries, hrising⟩

theorem eventId_inj {a b : Int × OfficeEvent} (ha : 0 < a.1) (hb : 0 < b.1)
    (h : (uiEvent missionId a).eventId = (uiEvent missionId b).eventId) : a.1 = b.1 := by
  have hl := congrArg String.toList h
  simp only [uiEvent, String.toList_append, append_cancel_left_eq] at hl
  obtain ⟨n, hn⟩ := Int.eq_ofNat_of_zero_le ha.le
  obtain ⟨m, hm⟩ := Int.eq_ofNat_of_zero_le hb.le
  rw [hn, hm] at hl ⊢
  exact congrArg _ (toString_inj hl)

theorem InStep.sameStory (h : s.InStep missionId) : s.SameStory := by
  obtain ⟨entries, hentries, hrising, -, hreceived⟩ := h.entries
  obtain ⟨hmap, hall⟩ := withSeqs_eq_some_iff.mp hentries
  have hints : ∀ source ∈ s.observed.events, source.seq.int?.isSome = true := by
    intro source hsource
    obtain ⟨entry, hentry, rfl⟩ := List.mem_map.mp (hmap ▸ hsource)
    rw [hall entry hentry]
    rfl
  obtain ⟨numbered, hnumbered⟩ := exists_numberSources hints 0
  obtain ⟨hpos, hpairwise⟩ := pairwise_cons.mp hrising
  refine ⟨h.raised, fun limit => ?_, ?_, fun cur hcur hterminal => h.last ?_, ?_⟩
  · rw [enumerated_sources hnumbered, hreceived, List.map_map, ← hmap]
    rfl
  · rw [hreceived, List.map_map, nodup_iff_pairwise_ne, pairwise_map]
    refine (pairwise_map.mp hpairwise).imp_of_mem ?_
    intro a b ha hb hab heq
    have := eventId_inj (hpos _ (List.mem_map_of_mem ha)) (hpos _ (List.mem_map_of_mem hb)) heq
    omega
  · rw [h.ended, hcur]
    exact hterminal
  · rw [h.done, h.ended]

/-- Sequences that rise weakly and are told apart by their identifiers rise. -/
theorem rising_of_nodup (hsorted : entries.Pairwise fun a b => bySeq a b = true)
    (hids : ((entries.map (uiEvent missionId)).map UiEvent.eventId).Nodup) :
    (entries.map Prod.fst).Pairwise (· < ·) := by
  rw [List.map_map, nodup_iff_pairwise_ne, pairwise_map] at hids
  refine pairwise_map.mpr (hsorted.imp₂ ?_ hids)
  intro a b hle hne
  refine lt_of_le_of_ne (by simpa [bySeq] using hle) fun heq => hne ?_
  simp [uiEvent, heq]

theorem behind_sorted (afterSeq : Int) (entries : List (Int × OfficeEvent)) :
    (behind afterSeq entries).Pairwise fun a b => bySeq a b = true :=
  (pairwise_mergeSort_bySeq entries).filter _

theorem sources_of_sameStory (h : s.SameStory) (hentries : withSeqs s.observed.events = some entries) :
    s.received.map UiEvent.source = entries.map Prod.snd := by
  obtain ⟨hmap, hall⟩ := withSeqs_eq_some_iff.mp hentries
  have hints : ∀ source ∈ s.observed.events, source.seq.int?.isSome = true := by
    intro source hsource
    obtain ⟨entry, hentry, rfl⟩ := List.mem_map.mp (hmap ▸ hsource)
    rw [hall entry hentry]
    rfl
  obtain ⟨numbered, hnumbered⟩ := exists_numberSources hints 0
  have hsources := (enumerated_sources hnumbered).symm.trans (h.sources 1)
  rw [hmap]
  exact (Option.some.inj hsources).symm

/-! The connection. -/

theorem connect_of_ascending {raw : OfficeRaw} (h : Ascending raw.events) : (connect missionId raw).InStep missionId := by
  obtain ⟨entries, hentries, hrising⟩ := h
  obtain ⟨snap, hsnap, hlast, htimeline⟩ := buildOfficeSnapshot_eq missionId hentries
  have hsorted := mergeSort_of_rising (pairwise_cons.mp hrising).2
  have hbehind : behind 0 entries = entries := by
    rw [behind, hsorted]
    exact filter_behind [] entries hrising
  rw [hbehind] at htimeline
  rw [hsorted] at hlast
  have hconnect : connect missionId raw = { raw, lastSeq := snap.lastSeq, sent := [.snapshot snap] } := by
    rw [connect, hsnap]
  rw [hconnect]
  exact ⟨rfl, ⟨snap, [], rfl⟩, ⟨entries, hentries, hrising, hlast, by simp [received, htimeline]⟩, rfl, by simp, rfl⟩

theorem ascending_of_connect {raw : OfficeRaw} (h : (connect missionId raw).SameStory) : Ascending raw.events := by
  cases hentries : withSeqs raw.events with
  | none =>
    have hraised := h.raised
    simp [connect, buildOfficeSnapshot, sortedEvents, hentries] at hraised
  | some entries =>
    obtain ⟨snap, hsnap, -, htimeline⟩ := buildOfficeSnapshot_eq missionId hentries
    have hconnect : connect missionId raw = { raw, lastSeq := snap.lastSeq, sent := [.snapshot snap] } := by
      rw [connect, hsnap]
    rw [hconnect] at h
    have hreceived : received { raw, lastSeq := snap.lastSeq, sent := [.snapshot snap] } =
        (behind 0 entries).map (uiEvent missionId) := by simp [received, htimeline]
    have hall := (withSeqs_eq_some_iff.mp hentries).2
    have hmem : ∀ entry ∈ behind 0 entries, entry ∈ entries ∧ 0 < entry.1 := by
      intro entry hentry
      obtain ⟨hm, hpos⟩ := mem_filter.mp hentry
      exact ⟨mem_mergeSort.mp hm, by simpa using hpos⟩
    have hsources := sources_of_sameStory h hentries
    rw [hreceived, List.map_map] at hsources
    have hsame : behind 0 entries = entries := entries_eq (fun entry he => hall entry (hmem entry he).1) hall hsources
    have hids := h.ids
    rw [hreceived] at hids
    have hrising := rising_of_nodup (behind_sorted 0 entries) hids
    rw [hsame] at hrising hmem
    refine ⟨entries, hentries, pairwise_cons.mpr ⟨fun seq hseq => ?_, hrising⟩⟩
    obtain ⟨entry, hentry, rfl⟩ := List.mem_map.mp hseq
    exact (hmem entry hentry).2

/-! A poll of a list that has grown. -/

theorem withSeqs_append {events more : List OfficeEvent} (h : withSeqs (events ++ more) = some entries) :
    ∃ front rest, entries = front ++ rest ∧ withSeqs events = some front ∧ withSeqs more = some rest := by
  obtain ⟨hmap, hall⟩ := withSeqs_eq_some_iff.mp h
  obtain ⟨front, rest, rfl, rfl, rfl⟩ := map_eq_append_iff.mp hmap
  obtain ⟨hfront, hrest⟩ := forall_mem_append.mp hall
  exact ⟨front, rest, rfl, withSeqs_eq_some_iff.mpr ⟨rfl, hfront⟩, withSeqs_eq_some_iff.mpr ⟨rfl, hrest⟩⟩

theorem max?_getD {seqs : List Int} (h : seqs.Pairwise (· < ·)) (default : Int) :
    seqs.max?.getD default = seqs.getLast?.getD default := by
  obtain rfl | ⟨front, last, rfl⟩ := seqs.eq_nil_or_concat'
  · rfl
  · have hmax : (front ++ [last]).max? = some last := by
      refine List.max?_eq_some_iff.mpr ⟨by simp, fun seq hseq => ?_⟩
      obtain hfront | hseq := mem_append.mp hseq
      · exact ((pairwise_append.mp h).2.2 seq hfront last (by simp)).le
      · exact (mem_singleton.mp hseq).le
    rw [hmax, List.getLast?_append]
    rfl

theorem filter_fst (entries : List (Int × OfficeEvent)) (afterSeq : Int) :
    (entries.map Prod.fst).filter (fun seq => decide (afterSeq < seq)) =
      (entries.filter fun entry => decide (afterSeq < entry.1)).map Prod.fst := by
  rw [List.filter_map]
  rfl

theorem step_eq (ha : s.step missionId cur = some t) :
    s.ended = false ∧ t = (s.poll missionId cur).getD { s with cur := some cur, raised := true } := by
  unfold step at ha
  split at ha
  · cases ha
  next hover =>
    simp only [Bool.or_eq_true, not_or, Bool.not_eq_true] at hover
    exact ⟨hover.1, (Option.some.inj ha).symm⟩

section
variable (h : s.InStep missionId) (hgrow : s.observed.events <+: cur.events) (ha : s.step missionId cur = some t)
include h hgrow ha

theorem InStep.step (hcur : Ascending cur.events) : t.InStep missionId := by
  obtain ⟨entries, hentries, -, hlast, hreceived⟩ := h.entries
  obtain ⟨all, hall, hrising⟩ := hcur
  obtain ⟨new, hnew⟩ := hgrow
  rw [← hnew] at hall
  obtain ⟨front, rest, rfl, hfront, -⟩ := withSeqs_append hall
  obtain rfl := Option.some.inj (hentries.symm.trans hfront)
  rw [hnew] at hall
  obtain ⟨hrunning, rfl⟩ := step_eq ha
  obtain ⟨t, more, ht, hsent, hevents, hdone, hend, hended, hraised, hcur', hlast'⟩ := poll_eq missionId (s := s) hall
  have hbehind : behind s.lastSeq (entries ++ rest) = rest := by
    rw [hlast, behind, mergeSort_of_rising (pairwise_cons.mp hrising).2]
    exact filter_behind entries rest hrising
  rw [ht, getD_some]
  have hobserved : t.observed = cur := by rw [observed, hcur', getD_some]
  obtain ⟨snap, sent, hbegun⟩ := h.begun
  refine ⟨hraised.trans h.raised, ⟨snap, sent ++ more, by rw [hsent, hbegun, cons_append]⟩,
    ⟨entries ++ rest, by rw [hobserved, hall], hrising, ?_, ?_⟩, ?_, ?_, ?_⟩
  · rw [hlast', filter_fst, hlast, filter_behind entries rest hrising]
    have hrest : (rest.map Prod.fst).Pairwise (· < ·) := by
      rw [map_append, ← cons_append] at hrising
      exact (pairwise_append.mp hrising).2.1
    rw [max?_getD hrest]
    cases rest with
    | nil => simp
    | cons entry rest =>
      rw [lastEntrySeq_append_cons, lastEntrySeq, List.getLast?_map, List.getLast?_cons, map_some,
        getD_some, lastEntrySeq, List.getLast?_cons, map_some, getD_some]
  · rw [received_append h.begun hsent, hevents, hbehind, hreceived, map_append]
  · rw [hended, hrunning, hcur']
    rfl
  · intro hover
    rw [hended, hrunning, Bool.false_or] at hover
    obtain ⟨lead, data, rfl⟩ := hend hover
    exact ⟨s.sent ++ lead, data, by rw [hsent, append_assoc]⟩
  · rw [hsent, countP_append, h.done, hdone, hended, hrunning]
    simp

theorem InStep.ascending_of_step (hstory : t.SameStory) : Ascending cur.events := by
  obtain ⟨entries, hentries, hrising, hlast, hreceived⟩ := h.entries
  obtain ⟨-, rfl⟩ := step_eq ha
  cases hall : withSeqs cur.events with
  | none =>
    have hraised := hstory.raised
    simp [poll_none hall] at hraised
  | some all =>
    obtain ⟨new, hnew⟩ := hgrow
    rw [← hnew] at hall
    obtain ⟨front, rest, rfl, hfront, -⟩ := withSeqs_append hall
    obtain rfl := Option.some.inj (hentries.symm.trans hfront)
    rw [hnew] at hall
    obtain ⟨t, more, ht, hsent, hevents, -, -, -, -, hcur', -⟩ := poll_eq missionId (s := s) hall
    rw [ht, getD_some] at hstory
    have hobserved : t.observed = cur := by rw [observed, hcur', getD_some]
    have hreceived' : t.received = (entries ++ behind s.lastSeq (entries ++ rest)).map (uiEvent missionId) := by
      rw [received_append h.begun hsent, hevents, hreceived, map_append]
    have hseqs := (withSeqs_eq_some_iff.mp hall).2
    have hmem : ∀ entry ∈ behind s.lastSeq (entries ++ rest), entry ∈ entries ++ rest ∧ s.lastSeq < entry.1 := by
      intro entry hentry
      obtain ⟨hm, hlt⟩ := mem_filter.mp hentry
      exact ⟨mem_mergeSort.mp hm, by simpa using hlt⟩
    have hsources := sources_of_sameStory hstory (hobserved ▸ hall)
    rw [hreceived', List.map_map, map_append, map_append] at hsources
    have hsame : behind s.lastSeq (entries ++ rest) = rest :=
      entries_eq (fun entry he => hseqs entry (hmem entry he).1)
        (fun entry he => hseqs entry (mem_append_right _ he)) (append_cancel_left hsources)
    have hids := hstory.ids
    rw [hreceived', map_append, map_append] at hids
    have hrest := rising_of_nodup (behind_sorted s.lastSeq (entries ++ rest)) (nodup_append.mp hids).2.1
    rw [hsame] at hrest hmem
    refine ⟨entries ++ rest, hall, ?_⟩
    rw [map_append, ← cons_append]
    refine pairwise_append.mpr ⟨hrising, hrest, fun a ha b hb => ?_⟩
    obtain ⟨entry, hentry, rfl⟩ := List.mem_map.mp hb
    refine lt_of_le_of_lt ?_ (hlast ▸ (hmem entry hentry).2)
    obtain rfl | ha := mem_cons.mp ha
    · exact (le_lastEntrySeq hrising).1
    · obtain ⟨entry', hentry', rfl⟩ := List.mem_map.mp ha
      exact (le_lastEntrySeq hrising).2 entry' hentry'

end

/-! Whole streams. -/

/-- The stored list only grows. -/
def Grows (s : OfficeStream) (cur : OfficeRaw) : Prop := s.observed.events <+: cur.events

theorem observed_step (ha : s.step missionId cur = some t) : t.observed = cur := by
  obtain ⟨-, rfl⟩ := step_eq ha
  cases hall : withSeqs cur.events with
  | none => simp [poll_none hall, observed]
  | some all =>
    obtain ⟨t, more, ht, -, -, -, -, -, -, hcur', -⟩ := poll_eq missionId (s := s) hall
    simp [ht, observed, hcur']

theorem observed_exec {polls : List OfficeRaw} : ∀ {s t : OfficeStream}, Along (step missionId) Grows s polls →
    exec (step missionId) s polls = some t → s.observed.events <+: t.observed.events := by
  induction polls with
  | nil =>
    intro s t _ he
    exact Option.some.inj he ▸ prefix_rfl
  | cons cur polls ih =>
    intro s t hgrow he
    obtain ⟨s', ha, he⟩ := exec_cons he
    have hs' := observed_step ha
    exact hgrow.1.trans (hs' ▸ ih (hgrow.2 s' ha) he)

theorem ascending_of_prefix {events events' : List OfficeEvent} (h : Ascending events') (hfront : events <+: events') :
    Ascending events := by
  obtain ⟨new, rfl⟩ := hfront
  obtain ⟨entries, hentries, hrising⟩ := h
  obtain ⟨front, rest, rfl, hfront, -⟩ := withSeqs_append hentries
  rw [map_append, ← cons_append] at hrising
  exact ⟨front, hfront, (pairwise_append.mp hrising).1⟩

theorem InStep.story_iff {polls : List OfficeRaw} : ∀ {s t : OfficeStream}, s.InStep missionId →
    Along (OfficeStream.step missionId) Grows s polls → exec (OfficeStream.step missionId) s polls = some t →
      ((∀ before after u, polls = before ++ after → exec (OfficeStream.step missionId) s before = some u → u.SameStory) ↔
        Ascending t.observed.events) := by
  induction polls with
  | nil =>
    intro s t h _ he
    obtain rfl := Option.some.inj he
    refine ⟨fun _ => h.ascending, fun _ before after u hsplit hu => ?_⟩
    obtain ⟨rfl, -⟩ := append_eq_nil_iff.mp hsplit.symm
    exact Option.some.inj hu ▸ h.sameStory
  | cons cur polls ih =>
    intro s t h hgrow he
    obtain ⟨s', ha, he⟩ := exec_cons he
    constructor
    · intro hstory
      have hs' : s'.SameStory := hstory [cur] polls s' rfl (by simp [exec, ha])
      have hin := h.step hgrow.1 ha (h.ascending_of_step hgrow.1 ha hs')
      refine (ih hin (hgrow.2 s' ha) he).mp fun before after u hsplit hu => ?_
      exact hstory (cur :: before) after u (by rw [hsplit, cons_append]) (by simp [exec, ha, hu])
    · intro hasc before after u hsplit hu
      have hcur := ascending_of_prefix hasc (observed_step ha ▸ observed_exec (hgrow.2 s' ha) he)
      cases before with
      | nil => exact Option.some.inj hu ▸ h.sameStory
      | cons cur' before =>
        obtain ⟨rfl, hrest⟩ := List.cons.inj hsplit
        obtain ⟨s₁, ha₁, hu⟩ := exec_cons hu
        obtain rfl := Option.some.inj (ha.symm.trans ha₁)
        exact (ih (h.step hgrow.1 ha hcur) (hgrow.2 s' ha) he).mpr hasc before after u hrest hu

theorem connect_cur (missionId : String) (raw : OfficeRaw) : (connect missionId raw).cur = none ∧ (connect missionId raw).observed = raw := by
  unfold connect
  split <;> exact ⟨rfl, rfl⟩

theorem InStep.exists_step (h : s.InStep missionId) (hcur : s.cur.any OfficeRaw.terminal = false) (cur : OfficeRaw) :
    ∃ t, s.step missionId cur = some t := by
  rw [OfficeStream.step, h.ended, h.raised, hcur]
  exact ⟨_, rfl⟩

/-- The office stream tells the story of the event list at every poll exactly when the sequences
of the events it has read are numbers that rise from above 0. -/
theorem story_told_iff {raw : OfficeRaw} {polls : List OfficeRaw} {s : OfficeStream}
    (hgrow : Along (step missionId) Grows (connect missionId raw) polls)
    (he : exec (step missionId) (connect missionId raw) polls = some s) :
    (∀ before after t, polls = before ++ after → exec (step missionId) (connect missionId raw) before = some t →
      t.SameStory) ↔ Ascending s.observed.events := by
  have hobserved := (connect_cur missionId raw).2
  constructor
  · intro hstory
    have hraw : Ascending raw.events := ascending_of_connect (hstory [] polls _ rfl rfl)
    exact ((connect_of_ascending hraw).story_iff hgrow he).mp hstory
  · intro hasc
    have hraw := ascending_of_prefix hasc (hobserved ▸ observed_exec hgrow he)
    exact ((connect_of_ascending hraw).story_iff hgrow he).mpr hasc

theorem story_told_two : ∃ s, exec (step "MS-1") (connect "MS-1" { events := [{ seq := .number 1 }] })
      [{ events := [{ seq := .number 1 }, { seq := .number 3 }], status := some "completed" }] = some s ∧
    s.observed.events = [{ seq := .number 1 }, { seq := .number 3 }] ∧ s.SameStory := by
  have hstart : (connect "MS-1" { events := [{ seq := .number 1 }] }).InStep "MS-1" :=
    connect_of_ascending ⟨_, rfl, by decide⟩
  obtain ⟨hcur, hobserved⟩ := connect_cur "MS-1" { events := [{ seq := .number 1 }] }
  obtain ⟨s, hs⟩ := hstart.exists_step (by rw [hcur]; rfl)
    { events := [{ seq := .number 1 }, { seq := .number 3 }], status := some "completed" }
  have he : exec (step "MS-1") (connect "MS-1" { events := [{ seq := .number 1 }] })
      [{ events := [{ seq := .number 1 }, { seq := .number 3 }], status := some "completed" }] = some s := by
    rw [exec, hs]
    rfl
  have hs' := observed_step hs
  have hgrow : Along (step "MS-1") Grows (connect "MS-1" { events := [{ seq := .number 1 }] })
      [{ events := [{ seq := .number 1 }, { seq := .number 3 }], status := some "completed" }] :=
    ⟨by unfold Grows; rw [hobserved]; exact ⟨[{ seq := .number 3 }], rfl⟩, fun _ _ => trivial⟩
  refine ⟨s, he, by rw [hs'], (story_told_iff hgrow he).mpr ?_ _ [] s rfl he⟩
  rw [hs']
  exact ⟨_, rfl, by decide⟩

/-- An event that is appended without a sequence never reaches the client. -/
theorem unnumbered_not_told : ∃ s, exec (step "MS-1") (connect "MS-1" { events := [{ seq := .number 1 }] })
      [{ events := [{ seq := .number 1 }, { seq := .number 0, kind := some "mission_completed" }] }] = some s ∧
    s.received.map UiEvent.source = [{ seq := .number 1 }] ∧
    (enumerated 500 s.observed.events 2).map (·.map Prod.snd) =
      some [{ seq := .number 1 }, { seq := .number 0, kind := some "mission_completed" }] ∧ ¬s.SameStory := by
  have hstart : (connect "MS-1" { events := [{ seq := .number 1 }] }).InStep "MS-1" :=
    connect_of_ascending ⟨_, rfl, by decide⟩
  obtain ⟨hcur, hobserved⟩ := connect_cur "MS-1" { events := [{ seq := .number 1 }] }
  obtain ⟨s, hs⟩ := hstart.exists_step (by rw [hcur]; rfl)
    { events := [{ seq := .number 1 }, { seq := .number 0, kind := some "mission_completed" }] }
  have hs' := observed_step hs
  obtain ⟨entries, hentries, -, hlast, hreceived⟩ := hstart.entries
  rw [hobserved] at hentries
  obtain rfl : [((1 : Int), ({ seq := .number 1 } : OfficeEvent))] = entries := Option.some.inj hentries
  refine ⟨s, by rw [exec, hs]; rfl, ?_, by rw [hs']; decide, fun hstory => ?_⟩
  · obtain ⟨-, rfl⟩ := step_eq hs
    have hentries : withSeqs (OfficeRaw.events
        { events := [{ seq := .number 1 }, { seq := .number 0, kind := some "mission_completed" }] }) = some _ := rfl
    obtain ⟨t, more, ht, hsent, hevents, -⟩ := poll_eq "MS-1"
      (s := connect "MS-1" { events := [{ seq := .number 1 }] }) hentries
    rw [ht, getD_some, received_append hstart.begun hsent, hevents, hreceived, hlast,
      behind_eq_nil_iff.mpr (by decide)]
    rfl
  · have hasc := hstart.ascending_of_step (by rw [hobserved]; exact ⟨_, rfl⟩) hs hstory
    obtain ⟨entries, hentries, hrising⟩ := hasc
    obtain rfl := Option.some.inj hentries
    revert hrising
    decide

end OfficeStream
end SelericSwarm
