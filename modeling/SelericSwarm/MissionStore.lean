import SelericSwarm.Machine
import SelericSwarm.Missions

/-! The two mission stores: one judges a write by two copies of the mission's
status, the other by a column, in the condition of its upsert. -/
open Option

namespace SelericSwarm
open Keyed

structure MissionPut where
  missionId : String
  result : MissionResult
  raw : Option RawMission := none

/-- The payload, where one is given, carries the status of the result. -/
def MissionPut.Paired (w : MissionPut) : Prop := ∀ raw ∈ w.raw, raw.status = some w.result.status

/-! `filter_events` renumbers what it returns, so that sequences increase. -/

def numberEvents (cursor : Int) : List MissionEvent → List MissionEvent
  | [] => []
  | event :: events =>
    let cursor := max (cursor + 1) event.seq
    { event with seq := cursor } :: numberEvents cursor events

def filterEvents (events : List MissionEvent) (family : Option String) (afterSeq limit : Int) :
    List MissionEvent :=
  ((numberEvents 0 events).filter fun event =>
    afterSeq < event.seq && (truthy family).all fun family =>
      event.family = family || (family ++ "_").isPrefixOf event.kind).take (max 1 limit).toNat

structure InMemoryMissionStore where
  results : Dict String MissionResult := .empty
  raws : Dict String RawMission := .empty
  events : Dict String (List MissionEvent) := .empty

namespace InMemoryMissionStore

def get (s : InMemoryMissionStore) (missionId : String) : Option MissionResult :=
  s.results.get? missionId

def getRaw (s : InMemoryMissionStore) (missionId : String) : Option RawMission :=
  s.raws.get? missionId

/-- The status of the payload, or of the result where the payload has none. -/
def current (s : InMemoryMissionStore) (missionId : String) : Option MissionStatus :=
  ((s.getRaw missionId).bind (·.status)).or ((s.get missionId).map (·.status))

/-- The three guards of `put`. -/
def refuses (s : InMemoryMissionStore) (w : MissionPut) : Bool :=
  ((s.getRaw w.missionId).any (·.status = some .cancelled) && w.result.status ≠ .cancelled) ||
  ((s.get w.missionId).any (·.status = .cancelled) && w.result.status ≠ .cancelled) ||
  (w.result.status = .cancelled && (s.current w.missionId).any (· ≠ .running))

/-- A result is written last, so that the newest mission is listed first. -/
def write (s : InMemoryMissionStore) (w : MissionPut) : InMemoryMissionStore where
  results := Dict.set (Table.erase s.results w.missionId) w.missionId w.result
  raws := w.raw.elim s.raws (s.raws.set w.missionId)
  events := w.raw.elim (Table.setdefault s.events (w.missionId, [])) fun raw =>
    s.events.set w.missionId raw.events

def put (s : InMemoryMissionStore) (w : MissionPut) : InMemoryMissionStore :=
  if s.refuses w then s else s.write w

def putAll (s : InMemoryMissionStore) (writes : List MissionPut) : InMemoryMissionStore :=
  writes.foldl put s

def listEvents (s : InMemoryMissionStore) (missionId : String) (family : Option String)
    (afterSeq limit : Int) : List MissionEvent :=
  let stored := s.events.getD missionId []
  filterEvents (if stored.isEmpty then (s.getRaw missionId).elim [] (·.events) else stored)
    family afterSeq limit

end InMemoryMissionStore

structure MissionRow where
  missionId : String
  status : MissionStatus
  result : MissionResult
  raw : RawMission

structure PostgresMissionStore where
  missions : Table MissionRow.missionId := .empty
  /-- The rows of `mission_events` in the order of their `source_seq`. -/
  missionEvents : Dict String (List MissionEvent) := .empty

namespace PostgresMissionStore

/-- The `WHERE` clause of the upsert. -/
def upserts (stored excluded : MissionStatus) : Bool :=
  (excluded ≠ .cancelled && stored ≠ .cancelled) || (excluded = .cancelled && stored = .running)

/-- Events that are not in the payload any more are pruned. -/
def put (s : PostgresMissionStore) (w : MissionPut) : PostgresMissionStore :=
  let raw := w.raw.getD {}
  let row := { missionId := w.missionId, status := w.result.status, result := w.result, raw := raw }
  if (s.missions.get? w.missionId).all fun stored => upserts stored.status w.result.status then
    { missions := s.missions.put row
      missionEvents := s.missionEvents.set w.missionId
        (filterEvents raw.events none 0 (max 1 raw.events.length)) }
  else s

def putAll (s : PostgresMissionStore) (writes : List MissionPut) : PostgresMissionStore :=
  writes.foldl put s

def status (s : PostgresMissionStore) (missionId : String) : Option MissionStatus :=
  (s.missions.get? missionId).map (·.status)

end PostgresMissionStore

/-! What a put changes. -/

namespace InMemoryMissionStore
variable {s : InMemoryMissionStore} {w : MissionPut}

theorem put_of_refuses (h : s.refuses w = true) : s.put w = s := by simp [put, h]

theorem get_put (s : InMemoryMissionStore) (w : MissionPut) (missionId : String) :
    (s.put w).get missionId =
      if w.missionId = missionId ∧ s.refuses w = false then some w.result else s.get missionId := by
  cases h : s.refuses w with
  | true => simp [put, h]
  | false => simp [put, h, get, write, Dict.get?_set_erase]

theorem getRaw_put (s : InMemoryMissionStore) (w : MissionPut) (missionId : String) :
    (s.put w).getRaw missionId =
      if w.missionId = missionId ∧ s.refuses w = false then w.raw.or (s.getRaw missionId)
      else s.getRaw missionId := by
  cases h : s.refuses w with
  | true => simp [put, h]
  | false =>
    cases hr : w.raw with
    | none => simp [put, h, getRaw, write, hr]
    | some raw => simp [put, h, getRaw, write, hr, Dict.get?_set]

/-- Both copies of the status say cancelled. -/
def Cancelled (s : InMemoryMissionStore) (missionId : String) : Prop :=
  (s.get missionId).map (·.status) = some .cancelled ∧
    (s.getRaw missionId).bind (·.status) = some .cancelled

theorem refuses_of_cancelled (hs : s.Cancelled w.missionId) : s.refuses w = true := by
  obtain ⟨hget, hraw⟩ := hs
  obtain ⟨result, hresult, hstatus⟩ := map_eq_some_iff.mp hget
  by_cases hw : w.result.status = .cancelled
  · simp [refuses, current, hraw, hw]
  · simp [refuses, hresult, hstatus, hw]

theorem Cancelled.put {missionId : String} (hs : s.Cancelled missionId) (w : MissionPut) :
    (s.put w).Cancelled missionId := by
  by_cases h : w.missionId = missionId
  · rwa [put_of_refuses (refuses_of_cancelled (h ▸ hs))]
  · simpa [Cancelled, get_put, getRaw_put, h] using hs

theorem Cancelled.putAll {missionId : String} (writes : List MissionPut) :
    ∀ {s : InMemoryMissionStore}, s.Cancelled missionId → (s.putAll writes).Cancelled missionId := by
  induction writes with
  | nil => exact id
  | cons w writes ih => exact fun hs => ih (hs.put w)

theorem refuses_cancelled (h : w.result.status = .cancelled) :
    s.refuses w = (s.current w.missionId).any (· ≠ .running) := by
  simp [refuses, h]

end InMemoryMissionStore

namespace PostgresMissionStore

theorem status_put (s : PostgresMissionStore) (w : MissionPut) (missionId : String) :
    (s.put w).status missionId =
      if w.missionId = missionId ∧ (s.status w.missionId).all (upserts · w.result.status) then
        some w.result.status
      else s.status missionId := by
  have hguard : ((s.missions.get? w.missionId).all fun stored => upserts stored.status w.result.status) =
      (s.status w.missionId).all (upserts · w.result.status) := by
    cases h : s.missions.get? w.missionId <;> simp [status, h]
  cases h : (s.status w.missionId).all (upserts · w.result.status) with
  | false => simp [put, hguard, h]
  | true =>
    simp only [put, hguard, h, if_true, and_true]
    by_cases hid : w.missionId = missionId
    · simp [status, Table.get?_put, hid]
    · simp [status, Table.get?_put, hid]

end PostgresMissionStore

/-- Both copies in the one store are the column of the other. -/
def SameStatus (s : InMemoryMissionStore) (t : PostgresMissionStore) : Prop :=
  ∀ missionId, (s.get missionId).map (·.status) = t.status missionId ∧
    (s.getRaw missionId).bind (·.status) = t.status missionId

namespace SameStatus
variable {s : InMemoryMissionStore} {t : PostgresMissionStore} {w : MissionPut}

theorem refuses_eq (h : SameStatus s t) (w : MissionPut) :
    s.refuses w = !(t.status w.missionId).all (PostgresMissionStore.upserts · w.result.status) := by
  obtain ⟨hget, hraw⟩ := h w.missionId
  have hcancelled : (s.getRaw w.missionId).any (·.status = some .cancelled) =
      (t.status w.missionId).any (· = .cancelled) := by
    rw [← hraw]
    cases s.getRaw w.missionId with
    | none => rfl
    | some raw => cases hs : raw.status <;> simp [hs]
  have hresult : (s.get w.missionId).any (·.status = .cancelled) =
      (t.status w.missionId).any (· = .cancelled) := by
    rw [← hget]
    cases s.get w.missionId <;> simp
  rw [InMemoryMissionStore.refuses, InMemoryMissionStore.current, hcancelled, hresult, hget, hraw]
  cases t.status w.missionId with
  | none => simp
  | some status =>
    by_cases hs : status = .cancelled
    · by_cases hw : w.result.status = .cancelled <;> simp [PostgresMissionStore.upserts, hs, hw]
    · by_cases hw : w.result.status = .cancelled <;> simp [PostgresMissionStore.upserts, hs, hw]

theorem put (h : SameStatus s t) (hw : w.Paired) (hraw : w.raw.isSome) :
    SameStatus (s.put w) (t.put w) := by
  intro missionId
  obtain ⟨raw, hr⟩ := isSome_iff_exists.mp hraw
  have hstatus := hw raw hr
  rw [InMemoryMissionStore.get_put, InMemoryMissionStore.getRaw_put, PostgresMissionStore.status_put,
    h.refuses_eq w]
  by_cases hid : w.missionId = missionId ∧
      (t.status w.missionId).all (PostgresMissionStore.upserts · w.result.status) = true
  · simp [hid.1, hid.1 ▸ hid.2, hr, hstatus]
  · have hid' : ¬ (w.missionId = missionId ∧
        (!(t.status w.missionId).all (PostgresMissionStore.upserts · w.result.status)) = false) := by
      simpa using hid
    simp only [if_neg hid, if_neg hid']
    exact h missionId

theorem putAll (writes : List MissionPut) :
    ∀ {s : InMemoryMissionStore} {t : PostgresMissionStore}, SameStatus s t →
      (∀ w ∈ writes, w.Paired ∧ w.raw.isSome) → SameStatus (s.putAll writes) (t.putAll writes) := by
  induction writes with
  | nil => exact fun h _ => h
  | cons w writes ih =>
    intro s t h hws
    have hw := hws w (by simp)
    exact ih (h.put hw.1 hw.2) fun w' hw' => hws w' (by simp [hw'])

theorem empty : SameStatus {} {} := fun _ => ⟨rfl, rfl⟩

end SameStatus

namespace InMemoryMissionStore

/-- Cancelling is final, and never replaces a concluded result. -/
structure Lawful (writes : List MissionPut) : Prop where
  cancelled : ∀ before w later after, writes = before ++ w :: (later ++ after) →
    w.result.status = .cancelled → (putAll {} before).refuses w = false →
      (putAll {} (before ++ w :: later)).Cancelled w.missionId
  ignored : ∀ before w later w' after, writes = before ++ w :: (later ++ w' :: after) →
    w.result.status = .cancelled → (putAll {} before).refuses w = false →
    w'.missionId = w.missionId → w'.result.status ≠ .cancelled →
      (putAll {} (before ++ w :: later)).put w' = putAll {} (before ++ w :: later)
  concluded : ∀ before w after, writes = before ++ w :: after → w.result.status = .cancelled →
    ((putAll {} before).get w.missionId).any (·.status.concluded) →
      (putAll {} before).put w = putAll {} before

/-- A cancelled write to a mission that is missing, or whose current status is
running, brings its payload, and the stored result has not concluded. -/
def cancelsWhole (s : InMemoryMissionStore) (w : MissionPut) : Bool :=
  w.result.status ≠ .cancelled || (s.current w.missionId).any (· ≠ .running) ||
    (w.raw.isSome && !(s.get w.missionId).any (·.status.concluded))

theorem along_cancelsWhole_iff (writes : List MissionPut) :
    Machine.Along (fun s w => some (put s w)) (fun s w => s.cancelsWhole w = true) {} writes ↔
      ∀ before w after, writes = before ++ w :: after →
        (putAll {} before).cancelsWhole w = true := by
  rw [Machine.along_iff]
  constructor
  · intro h before w after he
    exact h before w after _ he (Machine.exec_total put before {})
  · intro h before w after s he hs
    rw [Machine.exec_total] at hs
    exact Option.some.inj hs ▸ h before w after he

theorem putAll_cons_after (before later : List MissionPut) (w : MissionPut) (s : InMemoryMissionStore) :
    s.putAll (before ++ w :: later) = ((s.putAll before).put w).putAll later := by
  simp [putAll, List.foldl_append]

variable {s : InMemoryMissionStore} {w : MissionPut}

theorem cancelled_of_whole (hw : w.Paired) (hc : w.result.status = .cancelled)
    (hwhole : s.cancelsWhole w = true) (h : s.refuses w = false) : (s.put w).Cancelled w.missionId := by
  have hopen : (s.current w.missionId).any (· ≠ .running) = false := by rwa [← refuses_cancelled hc]
  have hraw : w.raw.isSome = true := by
    rw [cancelsWhole, hopen] at hwhole
    have hboth : (w.raw.isSome && !(s.get w.missionId).any (·.status.concluded)) = true := by
      simpa [hc] using hwhole
    exact (Bool.and_eq_true_iff.mp hboth).1
  obtain ⟨raw, hraw⟩ := isSome_iff_exists.mp hraw
  simp [Cancelled, get_put, getRaw_put, h, hraw, hw raw hraw, hc]

theorem refuses_of_concluded (hc : w.result.status = .cancelled) (hwhole : s.cancelsWhole w = true)
    (h : (s.get w.missionId).any (·.status.concluded) = true) : s.refuses w = true := by
  rw [refuses_cancelled hc]
  simpa [cancelsWhole, hc, h] using hwhole

theorem lawful_of_whole {writes : List MissionPut} (hp : ∀ w ∈ writes, w.Paired)
    (h : ∀ before w after, writes = before ++ w :: after →
      (putAll {} before).cancelsWhole w = true) : Lawful writes := by
  have hfinal : ∀ before w later after, writes = before ++ w :: (later ++ after) →
      w.result.status = .cancelled → (putAll {} before).refuses w = false →
        (putAll {} (before ++ w :: later)).Cancelled w.missionId := by
    intro before w later after he hc hopen
    have hw := hp w (by simp [he])
    rw [putAll_cons_after]
    exact (cancelled_of_whole hw hc (h before w _ he) hopen).putAll later
  constructor
  case cancelled => exact hfinal
  case ignored =>
    intro before w later w' after he hc hopen hid _
    apply put_of_refuses
    apply refuses_of_cancelled
    rw [hid]
    exact hfinal before w later (w' :: after) he hc hopen
  case concluded =>
    intro before w after he hc hend
    exact put_of_refuses (refuses_of_concluded hc (h before w after he) hend)

theorem whole_of_lawful {writes : List MissionPut} (h : Lawful writes) (before : List MissionPut)
    (w : MissionPut) (after : List MissionPut) (he : writes = before ++ w :: after) :
    (putAll {} before).cancelsWhole w = true := by
  by_contra hwhole
  have hc : w.result.status = .cancelled := by
    by_contra hc
    simp [cancelsWhole, hc] at hwhole
  have hopen : ((putAll {} before).current w.missionId).any (· ≠ .running) = false := by
    rw [Bool.eq_false_iff]
    intro hopen
    simp only [cancelsWhole, hopen, Bool.or_true, Bool.true_or, not_true_eq_false] at hwhole
  have heffect : (putAll {} before).refuses w = false := by rwa [refuses_cancelled hc]
  cases hend : ((putAll {} before).get w.missionId).any (·.status.concluded) with
  | true =>
    -- The concluded result is the cancelled one after the write.
    have hkept := h.concluded before w after he hc hend
    have hget := get_put (putAll {} before) w w.missionId
    rw [hkept, if_pos ⟨rfl, heffect⟩] at hget
    simp [hget, hc, MissionStatus.concluded] at hend
  | false =>
    -- The payload of the running mission stays where it is.
    have hraw : w.raw = none := by
      cases hraw : w.raw with
      | none => rfl
      | some raw => simp [cancelsWhole, hraw, hend] at hwhole
    have hcancelled := (h.cancelled before w [] after he hc heffect).2
    rw [putAll_cons_after, putAll, List.foldl_nil, getRaw_put, if_pos ⟨rfl, heffect⟩, hraw,
      none_or] at hcancelled
    simp [current, hcancelled] at hopen

theorem whole_of_sameStatus {t : PostgresMissionStore} (h : SameStatus s t) (hraw : w.raw.isSome) :
    s.cancelsWhole w = true := by
  obtain ⟨hget, hpayload⟩ := h w.missionId
  have hcurrent : s.current w.missionId = t.status w.missionId := by
    rw [current, hpayload, hget, Option.or_self]
  have hconcluded : (s.get w.missionId).any (·.status.concluded) =
      (t.status w.missionId).any MissionStatus.concluded := by
    rw [← hget]
    cases s.get w.missionId <;> simp
  rw [cancelsWhole, hcurrent, hconcluded, hraw]
  cases t.status w.missionId with
  | none => simp
  | some status => by_cases hs : status = .running <;> simp [hs, MissionStatus.concluded]

/-- The in-memory store keeps its law exactly on the sequences of writes that
cancel whole missions; where every write brings its payload it does, with the
statuses of the other store. -/
theorem compareAndSet_lawful_iff (writes : List MissionPut) (hp : ∀ w ∈ writes, w.Paired) :
    (Lawful writes ↔
      Machine.Along (fun s w => some (put s w)) (fun s w => s.cancelsWhole w = true) {} writes) ∧
    ((∀ w ∈ writes, w.raw.isSome) → Lawful writes ∧
      ∀ before after, writes = before ++ after → SameStatus (putAll {} before) (.putAll {} before)) := by
  constructor
  · rw [along_cancelsWhole_iff]
    exact ⟨whole_of_lawful, lawful_of_whole hp⟩
  · intro hraw
    have hsame : ∀ before after, writes = before ++ after →
        SameStatus (putAll {} before) (.putAll {} before) := by
      intro before after he
      apply SameStatus.empty.putAll
      intro w hw
      have hmem : w ∈ writes := by simp [he, hw]
      exact ⟨hp w hmem, hraw w hmem⟩
    refine ⟨lawful_of_whole hp ?_, hsame⟩
    intro before w after he
    exact whole_of_sameStatus (hsame before (w :: after) he) (hraw w (by simp [he]))

/-! The mission's end is written without a payload, so the stored payload still
says running and a cancellation goes through. -/

def whole (missionId : String) (status : MissionStatus) : MissionPut where
  missionId := missionId
  result := { status := status }
  raw := some { status := some status }

def bare (missionId : String) (status : MissionStatus) : MissionPut where
  missionId := missionId
  result := { status := status }

theorem whole_paired (missionId : String) (status : MissionStatus) : (whole missionId status).Paired := by
  simp [MissionPut.Paired, whole]

theorem bare_paired (missionId : String) (status : MissionStatus) : (bare missionId status).Paired := by
  simp [MissionPut.Paired, bare]

def cancelledAfterBareEnd : List MissionPut :=
  [whole "m" .running, bare "m" .completed, whole "m" .cancelled]

theorem cancelledAfterBareEnd_not_lawful :
    (∀ w ∈ cancelledAfterBareEnd, w.Paired) ∧ ¬ Lawful cancelledAfterBareEnd := by
  constructor
  · simp [cancelledAfterBareEnd, whole_paired, bare_paired]
  · intro h
    have hkept := h.concluded [whole "m" .running, bare "m" .completed] (whole "m" .cancelled) [] rfl rfl
      (by decide)
    have hget := congrArg (fun s => (s.get "m").map (·.status)) hkept
    revert hget
    decide

def cancelledBeforeEnd : List MissionPut :=
  [whole "m" .running, whole "m" .cancelled, bare "m" .completed, whole "m" .failed]

theorem cancelledBeforeEnd_lawful : Lawful cancelledBeforeEnd :=
  (compareAndSet_lawful_iff cancelledBeforeEnd
    (by simp [cancelledBeforeEnd, whole_paired, bare_paired])).1.mpr (by decide)

end InMemoryMissionStore

end SelericSwarm
