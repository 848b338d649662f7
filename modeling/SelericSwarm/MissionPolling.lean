import SelericSwarm.MissionStore

/-! A client that polls a mission's events while the attempts of the mission
and cancel calls replace the stored list. -/
open List Option

namespace SelericSwarm
open Keyed

/-- The event of `_mission_events` that tells how a mission ended. -/
def MissionStatus.eventKind : MissionStatus → String
  | .completed => "mission_completed"
  | .partialResult => "mission_partial"
  | .failed => "mission_failed"
  | .cancelled => "mission_cancelled"
  | _ => "mission_completed"

def missionEvents (status : MissionStatus) (hasEvidence : Bool) : List MissionEvent :=
  let created := { kind := "mission_created", family := "mission", seq := 1 }
  let wave := { kind := "task_wave_executed", family := "mission", seq := 2 }
  let ended :=
    { kind := status.eventKind, family := "mission", seq := if hasEvidence then 3 else 2 }
  created :: (if hasEvidence then [wave] else []) ++ if status = .running then [] else [ended]

/-- The payload of the final put of `run_v3_mission`. -/
def AgentResult.snapshot (result : AgentResult) : RawMission :=
  { result.payload with
    events := missionEvents (result.payload.status.getD .running) !result.evidence.isEmpty }

structure PolledMission where
  store : InMemoryMissionStore := {}
  /-- The payloads that cancel calls have read and have still to replace. -/
  read : List RawMission := []
  /-- How many writes the store has taken. -/
  version : Nat := 0
  /-- The events sent to the client, each with the version it was read from. -/
  received : List (Nat × MissionEvent) := []

inductive PollStep where
  | seed
  | finish (result : AgentResult)
  | fail (error : AgentError)
  | readForCancel
  | cancel (index : Nat)
  | poll

namespace PollStep

def put? (missionId : String) (read : List RawMission) : PollStep → Option MissionPut
  | .seed => some
    { missionId := missionId, result := MissionState.seeded.result, raw := some MissionState.seeded.raw }
  | .finish result => some
    { missionId := missionId, result := result.lookup, raw := some result.snapshot }
  | .fail error => some
    { missionId := missionId, result := AgentError.failedResult, raw := some error.failedPayload }
  | .cancel index => read[index]?.map fun raw =>
    { missionId := missionId, result := CancelStage.cancelledResult
      raw := some (CancelStage.cancelledPayload raw) }
  | .readForCancel | .poll => none

def rest (read : List RawMission) : PollStep → List RawMission
  | .cancel index => read.eraseIdx index
  | _ => read

/-- The sequences in front of the one that tells how the mission ended. -/
def before? : PollStep → Option Int
  | .finish result => some (if result.evidence.isEmpty then 1 else 2)
  | .fail _ | .cancel _ => some 1
  | .seed | .readForCancel | .poll => none

end PollStep

namespace PolledMission

/-- The last sequence the client has seen. -/
def cursor (s : PolledMission) : Int := (s.received.getLast?.map (·.2.seq)).getD 0

def poll (missionId : String) (s : PolledMission) : PolledMission :=
  { s with
    received := s.received ++ (s.store.listEvents missionId none s.cursor 500).map (s.version, ·) }

def write (s : PolledMission) (w : MissionPut) : PolledMission :=
  if s.store.refuses w then s else { s with store := s.store.put w, version := s.version + 1 }

def step (missionId : String) (s : PolledMission) : PollStep → Option PolledMission
  | .readForCancel =>
    if s.store.current missionId = some .running then
      some { s with read := s.read ++ [(s.store.getRaw missionId).getD {}] }
    else none
  | .poll => some (s.poll missionId)
  | a => (a.put? missionId s.read).map { s with read := a.rest s.read }.write

/-- Polling on, the client is sent the event that tells how the mission ended,
out of the list that the last write has stored. -/
def Informed (missionId : String) (s : PolledMission) : Prop :=
  ∀ status, s.store.current missionId = some status → status ≠ .running →
    ∃ polls event, event.kind = status.eventKind ∧
      (s.version, event) ∈ ((poll missionId)^[polls] s).received

/-- A write that ends the mission and is not refused finds a client whose last
sequence lies before the one of its announcement: 2, or 3 in a result with evidence. -/
def behind (missionId : String) (s : PolledMission) (a : PollStep) : Bool :=
  a.before?.all fun sequence =>
    (a.put? missionId s.read).all fun w => s.store.refuses w || s.cursor ≤ sequence

end PolledMission

/-! What a stored payload tells. -/

namespace RawMission

/-- The payload's events, numbered as they are sent, end with its announcement. -/
structure Announces (raw : RawMission) (status : MissionStatus) (sequence : Int) : Prop where
  status_eq : raw.status = some status
  ended : status ≠ .running
  last : ∃ front, (∀ event ∈ front, event.kind ≠ status.eventKind) ∧
    raw.events = front ++ [{ kind := status.eventKind, family := "mission", seq := sequence }]
  numbered : numberEvents 0 raw.events = raw.events
  short : raw.events.length ≤ 3

def Seeded (raw : RawMission) : Prop := raw.events = MissionState.seeded.raw.events

theorem Announces.seq_eq {raw : RawMission} {status : MissionStatus} {sequence : Int}
    (h : raw.Announces status sequence) {event : MissionEvent} (he : event ∈ raw.events)
    (hkind : event.kind = status.eventKind) : event.seq = sequence := by
  obtain ⟨front, hfront, hevents⟩ := h.last
  rw [hevents, mem_append, mem_singleton] at he
  obtain he | rfl := he
  · exact absurd hkind (hfront event he)
  · rfl

theorem Announces.mem {raw : RawMission} {status : MissionStatus} {sequence : Int}
    (h : raw.Announces status sequence) :
    { kind := status.eventKind, family := "mission", seq := sequence } ∈ raw.events := by
  obtain ⟨front, -, hevents⟩ := h.last
  simp [hevents]

theorem cancelledPayload_announces {raw : RawMission} (h : raw.Seeded) :
    (CancelStage.cancelledPayload raw).Announces .cancelled 2 := by
  have hevents : (CancelStage.cancelledPayload raw).events = MissionState.seeded.raw.events ++
      [{ kind := "mission_cancelled", family := "mission", seq := 2 }] := by
    simp [CancelStage.cancelledPayload, show raw.events = _ from h, MissionState.seeded]
  refine ⟨rfl, by decide, ⟨MissionState.seeded.raw.events, by decide, hevents⟩, ?_, ?_⟩
  · rw [hevents]
    decide
  · rw [hevents]
    decide

end RawMission

theorem AgentError.failedPayload_announces (error : AgentError) :
    error.failedPayload.Announces .failed 2 where
  status_eq := rfl
  ended := by decide
  last := ⟨[], by simp, rfl⟩
  numbered := rfl
  short := by simp [AgentError.failedPayload]

theorem RawMission.announces_of_missionEvents {raw : RawMission} {status : MissionStatus}
    {hasEvidence : Bool} (hstatus : raw.status = some status) (hended : status ≠ .running)
    (hevents : raw.events = missionEvents status hasEvidence) :
    raw.Announces status (if hasEvidence then 3 else 2) where
  status_eq := hstatus
  ended := hended
  last := by
    refine ⟨missionEvents .running hasEvidence, ?_, ?_⟩
    · cases status <;> cases hasEvidence <;> decide
    · cases hasEvidence <;> simp [hevents, missionEvents, hended]
  numbered := by
    rw [hevents]
    cases hasEvidence <;> simp [missionEvents, hended, numberEvents]
  short := by
    rw [hevents]
    cases hasEvidence <;> simp [missionEvents, hended]

theorem AgentResult.snapshot_announces (result : AgentResult) :
    ∃ status, result.snapshot.Announces status (if !result.evidence.isEmpty then 3 else 2) := by
  obtain ⟨status, hstatus, hended⟩ : ∃ status, result.payload.status = some status ∧
      status ≠ .running := by
    rw [AgentResult.payload]
    cases result.status <;> exact ⟨_, rfl, by decide⟩
  refine ⟨status, RawMission.announces_of_missionEvents hstatus hended ?_⟩
  simp [AgentResult.snapshot, hstatus]

/-! What the store holds of the mission, and what the client has been sent. -/

/-- A write of an attempt or of a cancel call brings its payload, which is the
seed's or announces its status right behind the sequences in front. -/
theorem PollStep.put?_told {missionId : String} {read : List RawMission}
    (hread : ∀ raw ∈ read, raw.Seeded) {a : PollStep} {w : MissionPut}
    (h : a.put? missionId read = some w) : w.missionId = missionId ∧ ∃ raw, w.raw = some raw ∧
      (a.before? = none ∧ raw.status = some .running ∧ raw.Seeded ∨
        ∃ status n, a.before? = some n ∧ raw.Announces status (n + 1)) := by
  cases a with
  | seed =>
    obtain rfl := Option.some.inj h
    exact ⟨rfl, _, rfl, Or.inl ⟨rfl, rfl, rfl⟩⟩
  | finish result =>
    obtain rfl := Option.some.inj h
    obtain ⟨status, hs⟩ := result.snapshot_announces
    refine ⟨rfl, _, rfl, Or.inr ⟨status, _, rfl, ?_⟩⟩
    cases he : result.evidence.isEmpty <;> simpa [he] using hs
  | fail error =>
    obtain rfl := Option.some.inj h
    exact ⟨rfl, _, rfl, Or.inr ⟨_, _, rfl, error.failedPayload_announces⟩⟩
  | cancel index =>
    obtain ⟨raw, hraw, rfl⟩ := map_eq_some_iff.mp h
    have hseeded := hread raw (mem_of_getElem? hraw)
    exact ⟨rfl, _, rfl, Or.inr ⟨_, _, rfl, RawMission.cancelledPayload_announces hseeded⟩⟩
  | readForCancel | poll => cases h

namespace PolledMission
variable {missionId : String} {s s' : PolledMission} {raw : RawMission} {status : MissionStatus}

/-- The stored list is the one of the payload. -/
structure Coherent (missionId : String) (s : PolledMission) : Prop where
  filed : ∀ raw, s.store.getRaw missionId = some raw →
    s.store.events.get? missionId = some raw.events ∧
      (raw.status = some .running ∧ raw.Seeded ∨ ∃ status n, raw.Announces status n)
  bare : s.store.getRaw missionId = none → s.store.get missionId = none
  read : ∀ raw ∈ s.read, raw.Seeded
  past : ∀ sent ∈ s.received, sent.1 ≤ s.version

theorem Coherent.initial : Coherent missionId {} where
  filed := by simp [InMemoryMissionStore.getRaw]
  bare := by simp [InMemoryMissionStore.get]
  read := by simp
  past := by simp

theorem Coherent.current (h : Coherent missionId s) :
    s.store.current missionId = (s.store.getRaw missionId).bind (·.status) := by
  cases hraw : s.store.getRaw missionId with
  | none => simp [InMemoryMissionStore.current, hraw, h.bare hraw]
  | some raw =>
    obtain ⟨-, ⟨hs, -⟩ | ⟨status, n, hs⟩⟩ := h.filed raw hraw
    · simp [InMemoryMissionStore.current, hraw, hs]
    · simp [InMemoryMissionStore.current, hraw, hs.status_eq]

theorem after_of_mem_listEvents {store : InMemoryMissionStore} {cursor limit : Int}
    {event : MissionEvent} (h : event ∈ store.listEvents missionId none cursor limit) :
    cursor < event.seq := by
  have hmem := mem_of_mem_take h
  simpa [truthy] using (mem_filter.mp hmem).2

theorem Coherent.mem_listEvents (h : Coherent missionId s)
    (hraw : s.store.getRaw missionId = some raw) (hs : ∃ n, raw.Announces status n)
    {event : MissionEvent} {cursor : Int} :
    event ∈ s.store.listEvents missionId none cursor 500 ↔ event ∈ raw.events ∧ cursor < event.seq := by
  obtain ⟨n, hs⟩ := hs
  have hlist : s.store.listEvents missionId none cursor 500 =
      raw.events.filter (cursor < ·.seq) := by
    have hlength : (raw.events.filter (cursor < ·.seq)).length ≤ 500 :=
      le_trans (length_filter_le _ _) (le_trans hs.short (by omega))
    have htake : (max 1 500 : Int).toNat = 500 := rfl
    simp only [InMemoryMissionStore.listEvents, filterEvents, Dict.getD, (h.filed raw hraw).1,
      hraw, getD_some, elim_some, ite_self, hs.numbered, htake]
    simpa [truthy] using take_of_length_le hlength
  simp [hlist]

theorem cursor_poll (missionId : String) (s : PolledMission) :
    s.cursor ≤ (s.poll missionId).cursor := by
  obtain he | ⟨front, event, he⟩ := (s.store.listEvents missionId none s.cursor 500).eq_nil_or_concat'
  · simp only [poll, he, map_nil, append_nil]
    exact le_rfl
  · have hmem : event ∈ s.store.listEvents missionId none s.cursor 500 := by simp [he]
    have hafter := after_of_mem_listEvents hmem
    have hcursor : (s.poll missionId).cursor = event.seq := by
      simp only [poll, he]
      simp [cursor]
    omega

theorem Coherent.poll (h : Coherent missionId s) : Coherent missionId (s.poll missionId) where
  filed := h.filed
  bare := h.bare
  read := h.read
  past := by
    intro sent hsent
    obtain hsent | hsent := mem_append.mp hsent
    · exact h.past sent hsent
    · obtain ⟨event, -, rfl⟩ := List.mem_map.mp hsent
      exact le_rfl

theorem Coherent.write (h : Coherent missionId s) {w : MissionPut} (hid : w.missionId = missionId)
    (hw : w.raw = some raw)
    (htold : raw.status = some .running ∧ raw.Seeded ∨ ∃ status n, raw.Announces status n) :
    Coherent missionId (s.write w) := by
  subst hid
  by_cases hr : s.store.refuses w = true
  · rwa [PolledMission.write, if_pos hr]
  rw [PolledMission.write, if_neg hr]
  have hopen : s.store.refuses w = false := by simpa using hr
  refine { filed := ?_, bare := ?_, read := h.read, past := ?_ }
  · intro raw' hraw'
    have hput : (s.store.put w).getRaw w.missionId = some raw := by
      simp [InMemoryMissionStore.getRaw_put, hopen, hw]
    obtain rfl := Option.some.inj (hput.symm.trans hraw')
    refine ⟨?_, htold⟩
    simp [InMemoryMissionStore.put, hopen, InMemoryMissionStore.write, hw]
  · intro hnone
    simp [InMemoryMissionStore.getRaw_put, hopen, hw] at hnone
  · intro sent hsent
    exact Nat.le_succ_of_le (h.past sent hsent)

theorem rest_subset (read : List RawMission) (a : PollStep) : a.rest read ⊆ read := by
  cases a with
  | cancel index => exact eraseIdx_subset
  | _ => exact List.Subset.refl _

theorem step_cases {a : PollStep} (h : step missionId s a = some s') :
    (a = .poll ∧ s' = s.poll missionId) ∨
    (a = .readForCancel ∧ s.store.current missionId = some .running ∧
      s' = { s with read := s.read ++ [(s.store.getRaw missionId).getD {}] }) ∨
    ∃ w, a.put? missionId s.read = some w ∧ s' = write { s with read := a.rest s.read } w := by
  cases a with
  | poll => exact Or.inl ⟨rfl, (Option.some.inj h).symm⟩
  | readForCancel =>
    by_cases hr : s.store.current missionId = some .running
    · rw [step, if_pos hr] at h
      exact Or.inr (Or.inl ⟨rfl, hr, (Option.some.inj h).symm⟩)
    · rw [step, if_neg hr] at h
      cases h
  | seed | finish _ | fail _ => exact Or.inr (Or.inr ⟨_, rfl, (Option.some.inj h).symm⟩)
  | cancel index =>
    obtain ⟨w, hw, rfl⟩ := map_eq_some_iff.mp h
    exact Or.inr (Or.inr ⟨w, hw, rfl⟩)

theorem Coherent.step {a : PollStep} (hs : Coherent missionId s)
    (h : step missionId s a = some s') : Coherent missionId s' := by
  obtain ⟨-, rfl⟩ | ⟨-, hrun, rfl⟩ | ⟨w, hw, rfl⟩ := step_cases h
  · exact hs.poll
  · refine { hs with read := ?_ }
    intro raw hraw
    obtain hraw | hraw := mem_append.mp hraw
    · exact hs.read raw hraw
    -- A payload that says running is the seed's.
    rw [hs.current] at hrun
    obtain ⟨stored, hstored, hstatus⟩ := bind_eq_some_iff.mp hrun
    obtain rfl : raw = stored := by simpa [hstored] using hraw
    obtain ⟨-, ⟨-, hseeded⟩ | ⟨status, n, hann⟩⟩ := hs.filed raw hstored
    · exact hseeded
    · exact absurd (Option.some.inj (hann.status_eq.symm.trans hstatus)) hann.ended
  · obtain ⟨hid, raw, hraw, htold⟩ := PollStep.put?_told hs.read hw
    have hs' : Coherent missionId { s with read := a.rest s.read } :=
      { hs with read := fun raw hraw => hs.read raw (rest_subset s.read a hraw) }
    apply hs'.write hid hraw
    obtain ⟨-, hseeded⟩ | ⟨status, n, -, hann⟩ := htold
    · exact Or.inl hseeded
    · exact Or.inr ⟨status, n + 1, hann⟩

/-- The announcement has been sent, or lies behind the cursor. -/
def Ahead (missionId : String) (s : PolledMission) : Prop :=
  ∀ raw status n, s.store.getRaw missionId = some raw → raw.Announces status n →
    (s.version, { kind := status.eventKind, family := "mission", seq := n }) ∈ s.received ∨ s.cursor < n

theorem Ahead.received (h : Ahead missionId s) (hs : Coherent missionId s) {n : Int}
    (hraw : s.store.getRaw missionId = some raw) (hann : raw.Announces status n) :
    (s.version, { kind := status.eventKind, family := "mission", seq := n }) ∈
      (s.poll missionId).received := by
  obtain hsent | hahead := h raw status n hraw hann
  · exact mem_append_left _ hsent
  · apply mem_append_right
    apply List.mem_map_of_mem
    exact (hs.mem_listEvents hraw ⟨n, hann⟩).mpr ⟨hann.mem, hahead⟩

theorem write_cases {w : MissionPut} (hid : w.missionId = missionId) (hw : w.raw = some raw) :
    (s.store.refuses w = true ∧ s.write w = s) ∨
    (s.store.refuses w = false ∧ (s.write w).store.getRaw missionId = some raw ∧
      (s.write w).version = s.version + 1 ∧ (s.write w).received = s.received) := by
  subst hid
  by_cases hr : s.store.refuses w = true
  · exact Or.inl ⟨hr, if_pos hr⟩
  · have hopen : s.store.refuses w = false := by simpa using hr
    refine Or.inr ⟨hopen, ?_⟩
    rw [PolledMission.write, if_neg hr]
    exact ⟨by simp [InMemoryMissionStore.getRaw_put, hopen, hw], rfl, rfl⟩

theorem Ahead.step {a : PollStep} (hs : Coherent missionId s) (hahead : Ahead missionId s)
    (hok : s.behind missionId a = true) (h : step missionId s a = some s') : Ahead missionId s' := by
  obtain ⟨-, rfl⟩ | ⟨-, -, rfl⟩ | ⟨w, hw, rfl⟩ := step_cases h
  · intro raw status n hraw hann
    exact Or.inl (hahead.received hs hraw hann)
  · exact hahead
  · obtain ⟨hid, raw, hraw, htold⟩ := PollStep.put?_told hs.read hw
    obtain ⟨-, he⟩ | ⟨hopen, hstored, -, hreceived⟩ :=
        write_cases (s := { s with read := a.rest s.read }) hid hraw
    · rw [he]
      exact hahead
    · intro raw' status n hraw' hann
      obtain rfl := Option.some.inj (hstored.symm.trans hraw')
      obtain ⟨-, hrun, -⟩ | ⟨status', m, hm, hann'⟩ := htold
      · exact absurd (Option.some.inj (hann.status_eq.symm.trans hrun)) hann.ended
      · right
        obtain rfl : status = status' := Option.some.inj (hann.status_eq.symm.trans hann'.status_eq)
        have hn : n = m + 1 := hann'.seq_eq hann.mem rfl
        have hcursor : s.cursor ≤ m := by
          simpa [behind, hm, hw, show s.store.refuses w = false from hopen] using hok
        rw [cursor, hreceived]
        exact hn ▸ Int.lt_add_one_of_le hcursor

theorem Ahead.initial : Ahead missionId {} := by
  intro raw status n hraw
  simp [InMemoryMissionStore.getRaw] at hraw

theorem informed_of_ahead (hs : Coherent missionId s) (h : Ahead missionId s) :
    s.Informed missionId := by
  intro status hstatus hended
  rw [hs.current] at hstatus
  obtain ⟨raw, hraw, hstatus⟩ := bind_eq_some_iff.mp hstatus
  obtain ⟨-, ⟨hrun, -⟩ | ⟨status', n, hann⟩⟩ := hs.filed raw hraw
  · exact absurd (Option.some.inj (hstatus.symm.trans hrun)) hended
  · obtain rfl : status' = status := Option.some.inj (hann.status_eq.symm.trans hstatus)
    exact ⟨1, _, rfl, h.received hs hraw hann⟩

theorem polls_of_unsent (hs : Coherent missionId s) {n : Int}
    (hraw : s.store.getRaw missionId = some raw) (hann : raw.Announces status n)
    (hunsent : ∀ sent ∈ s.received, sent.1 < s.version) (polls : Nat) :
    let t := (poll missionId)^[polls] s
    Coherent missionId t ∧ t.store = s.store ∧ t.version = s.version ∧ s.cursor ≤ t.cursor ∧
      ∀ event, (s.version, event) ∈ t.received → event ∈ raw.events ∧ s.cursor < event.seq := by
  induction polls with
  | zero =>
    refine ⟨hs, rfl, rfl, le_rfl, ?_⟩
    intro event hevent
    exact absurd (hunsent _ hevent) (lt_irrefl _)
  | succ polls ih =>
    rw [Function.iterate_succ_apply']
    obtain ⟨ht, hstore, hversion, hcursor, hsent⟩ := ih
    generalize (poll missionId)^[polls] s = t at *
    refine ⟨ht.poll, hstore, hversion, hcursor.trans (cursor_poll missionId t), ?_⟩
    intro event hevent
    obtain hevent | hevent := mem_append.mp hevent
    · exact hsent event hevent
    · obtain ⟨event', hlisted, he⟩ := List.mem_map.mp hevent
      obtain rfl := (Prod.mk.inj he).2
      obtain ⟨hmem, hafter⟩ := (ht.mem_listEvents (hstore ▸ hraw) ⟨n, hann⟩).mp hlisted
      exact ⟨hmem, lt_of_le_of_lt hcursor hafter⟩

/-- A client that has seen the announcement's sequence before the write is never told. -/
theorem behind_of_informed {a : PollStep} (hs : Coherent missionId s)
    (h : step missionId s a = some s') (hinformed : s'.Informed missionId) :
    s.behind missionId a = true := by
  by_contra hbehind
  obtain ⟨rfl, -⟩ | ⟨rfl, -⟩ | ⟨w, hw, he⟩ := step_cases h
  · exact hbehind rfl
  · exact hbehind rfl
  obtain ⟨hid, raw, hraw, htold⟩ := PollStep.put?_told hs.read hw
  obtain ⟨hnone, -⟩ | ⟨status, n, hn, hann⟩ := htold
  · exact hbehind (by simp [behind, hnone])
  have hlow : s.store.refuses w = false ∧ n < s.cursor := by
    simpa [behind, hn, hw] using hbehind
  obtain ⟨hr, -⟩ | ⟨-, hstored, hversion, hreceived⟩ :=
      write_cases (s := { s with read := a.rest s.read }) hid hraw
  · exact Bool.noConfusion (hr.symm.trans hlow.1)
  rw [← he] at hstored hversion hreceived
  have hs' := hs.step h
  have hcurrent : s'.store.current missionId = some status := by
    rw [hs'.current, hstored, bind_some, hann.status_eq]
  have hunsent : ∀ sent ∈ s'.received, sent.1 < s'.version := by
    intro sent hsent
    rw [hversion]
    rw [hreceived] at hsent
    exact Nat.lt_succ_of_le (hs.past sent hsent)
  obtain ⟨polls, event, hkind, hevent⟩ := hinformed status hcurrent hann.ended
  obtain ⟨-, -, -, -, hsent⟩ := polls_of_unsent hs' hstored hann hunsent polls
  obtain ⟨hmem, hafter⟩ := hsent event hevent
  have hcursor : s'.cursor = s.cursor := by
    rw [cursor, hreceived]
    rfl
  have := hann.seq_eq hmem hkind
  omega

theorem behind_of_none {a : PollStep} (h : step missionId s a = none) : s.behind missionId a = true := by
  cases a with
  | poll | seed | finish _ | fail _ => cases h
  | readForCancel => rfl
  | cancel index => simp [behind, map_eq_none_iff.mp h]

theorem along_of_informed {steps : List PollStep}
    (h : ∀ before after s, steps = before ++ after →
      Machine.exec (step missionId) {} before = some s → s.Informed missionId) :
    Machine.Along (step missionId) (fun s a => s.behind missionId a = true) {} steps := by
  rw [Machine.along_iff]
  intro before a after s hsteps he
  cases ha : step missionId s a with
  | none => exact behind_of_none ha
  | some s' =>
    have hs : Coherent missionId s :=
      Machine.invariant (fun _ _ _ hi hstep => hi.step hstep) .initial he
    refine behind_of_informed hs ha (h (before ++ [a]) after s' (by simp [hsteps]) ?_)
    rw [Machine.exec_append, he, bind_some, Machine.exec, ha]
    rfl

/-- The client is told in every state of a run exactly when every announcement
is numbered behind what it has already been sent. -/
theorem informed_iff_behind (missionId : String) (steps : List PollStep) :
    (∀ before after s, steps = before ++ after →
      Machine.exec (step missionId) {} before = some s → s.Informed missionId) ↔
    Machine.Along (step missionId) (fun s a => s.behind missionId a = true) {} steps := by
  constructor
  · exact along_of_informed
  · rintro h before after s rfl he
    obtain ⟨hs, hahead⟩ := Machine.invariant_along
      (I := fun s => Coherent missionId s ∧ Ahead missionId s)
      (fun s a s' hi hok hstep => ⟨hi.1.step hstep, Ahead.step hi.1 hi.2 hok hstep⟩)
      ⟨.initial, .initial⟩ (Machine.along_append.mp h).1 he
    exact informed_of_ahead hs hahead

/-! The first attempt stores a complete answer and dies before it is settled; the
second one fails with a sequence the client has seen. -/

def failedAfterAnswer : List PollStep :=
  [.seed, .poll, .finish { status := .completed, finalResponse := "42" }, .poll,
    .fail { message := "connection lost" }]

theorem failedAfterAnswer_not_informed :
    ¬ ∀ before after s, failedAfterAnswer = before ++ after →
      Machine.exec (step "m") {} before = some s → s.Informed "m" := by
  intro h
  exact absurd (along_of_informed h) (by decide)

end PolledMission

end SelericSwarm
