import SelericSwarm.MissionAgreement
import SelericSwarm.MissionStore

/-! `submit_message` puts the seeded payload once more after its transaction,
when a worker may already have claimed the run and ended the mission. -/
open List Option

namespace SelericSwarm
open Keyed

inductive StoreKind where
  | memory | postgres
  deriving DecidableEq, Repr

namespace MissionState

/-- `PostgresMissionStore.put`, with the result's status for `missions.status`. -/
def upsert (m : MissionState) (result : MissionResult) (raw : RawMission) : MissionState :=
  if PostgresMissionStore.upserts m.result.status result.status then { m with result := result, raw := raw }
  else m

def putOn (m : MissionState) (store : StoreKind) (result : MissionResult) (raw : RawMission) :
    MissionState :=
  match store with
  | .memory => m.put result raw
  | .postgres => m.upsert result raw

/-- One of the two copies says that the mission has ended. -/
def reportsTerminal (m : MissionState) : Bool :=
  m.result.status ≠ .running || m.raw.status.any (· ≠ .running)

def reportsRunning (m : MissionState) : Bool :=
  m.result.status = .running || m.raw.status = some .running

end MissionState

/-! A mission of a store is the mission state, and a put of the store is its put. -/

namespace InMemoryMissionStore

structure Holds (s : InMemoryMissionStore) (missionId : String) (m : MissionState) : Prop where
  result : s.get missionId = some m.result
  raw : s.getRaw missionId = some m.raw
  events : s.events.get? missionId = some m.raw.events

theorem Holds.put {s : InMemoryMissionStore} {missionId : String} {m : MissionState}
    (h : s.Holds missionId m) (result : MissionResult) (raw : RawMission) :
    (s.put { missionId := missionId, result := result, raw := some raw }).Holds missionId
      (m.put result raw) := by
  have hcurrent : s.current missionId = some m.status := by
    rw [current, h.raw, h.result]
    cases hs : m.raw.status <;> simp [MissionState.status, hs]
  cases hr : s.refuses { missionId := missionId, result := result, raw := some raw } with
  | true =>
    have hkept : m.put result raw = m := by
      simp only [refuses, h.result, h.raw, hcurrent, any_some, Bool.or_eq_true,
        Bool.and_eq_true, decide_eq_true_eq] at hr
      obtain (hraw | hresult) | hended := hr
      · rw [MissionState.put, if_pos hraw]
      · rw [MissionState.put, if_pos hresult, ite_self]
      · rw [MissionState.put, if_pos hended, ite_self, ite_self]
    rw [put_of_refuses hr, hkept]
    exact h
  | false =>
    have hwritten : m.put result raw = { m with result := result, raw := raw } := by
      simp only [refuses, h.result, h.raw, hcurrent, any_some, Bool.or_eq_false_iff,
        Bool.and_eq_false_iff, decide_eq_false_iff_not, ← not_and_or] at hr
      rw [MissionState.put, if_neg hr.1.1, if_neg hr.1.2, if_neg hr.2]
    rw [hwritten, InMemoryMissionStore.put, hr]
    exact
      { result := by simp [get, write]
        raw := by simp [getRaw, write]
        events := by simp [write] }

end InMemoryMissionStore

namespace PostgresMissionStore

structure Holds (s : PostgresMissionStore) (missionId : String) (m : MissionState) : Prop where
  row : s.missions.get? missionId =
    some { missionId := missionId, status := m.result.status, result := m.result, raw := m.raw }
  events : s.missionEvents.get? missionId =
    some (filterEvents m.raw.events none 0 (max 1 m.raw.events.length))

theorem Holds.put {s : PostgresMissionStore} {missionId : String} {m : MissionState}
    (h : s.Holds missionId m) (result : MissionResult) (raw : RawMission) :
    (s.put { missionId := missionId, result := result, raw := some raw }).Holds missionId
      (m.upsert result raw) := by
  rw [PostgresMissionStore.put, MissionState.upsert, h.row, all_some]
  split
  · exact
      { row := by simp
        events := by simp }
  · exact h

end PostgresMissionStore

/-- What is written of one mission, among the puts of others. -/
def MissionState.putAllOn (m : MissionState) (store : StoreKind) (missionId : String) (writes : List MissionPut) :
    MissionState :=
  writes.foldl (fun m w => if w.missionId = missionId then w.raw.elim m (m.putOn store w.result) else m) m

theorem InMemoryMissionStore.Holds.put_other {s : InMemoryMissionStore} {missionId : String} {m : MissionState}
    {w : MissionPut} (h : s.Holds missionId m) (hne : w.missionId ≠ missionId) : (s.put w).Holds missionId m := by
  rw [InMemoryMissionStore.put]
  split
  · exact h
  · obtain ⟨row, hrow, hevents⟩ := map_eq_some_iff.mp h.events
    rw [write]
    cases w.raw with
    | none =>
      exact
        { result := (Dict.get?_set_erase _ _ _ _).trans ((if_neg hne).trans h.result)
          raw := h.raw
          events := map_eq_some_iff.mpr ⟨row, Table.get?_setdefault_of_some hrow, hevents⟩ }
    | some raw =>
      exact
        { result := (Dict.get?_set_erase _ _ _ _).trans ((if_neg hne).trans h.result)
          raw := (Dict.get?_set_of_ne _ _ hne).trans h.raw
          events := (Dict.get?_set_of_ne _ _ hne).trans h.events }

theorem PostgresMissionStore.Holds.put_other {s : PostgresMissionStore} {missionId : String} {m : MissionState}
    {w : MissionPut} (h : s.Holds missionId m) (hne : w.missionId ≠ missionId) : (s.put w).Holds missionId m := by
  unfold PostgresMissionStore.put
  dsimp only
  split
  · exact
      { row := by rw [Table.get?_put, if_neg hne, h.row]
        events := (Dict.get?_set_of_ne _ _ hne).trans h.events }
  · exact h

/-- Whatever is written of other missions in between, each store holds what its own puts make of a mission. -/
theorem holds_putAll {missionId : String} (writes : List MissionPut)
    (hraw : ∀ w ∈ writes, w.missionId = missionId → w.raw.isSome = true) :
    ∀ {memory : InMemoryMissionStore} {postgres : PostgresMissionStore} {m m' : MissionState},
      memory.Holds missionId m → postgres.Holds missionId m' →
        (memory.putAll writes).Holds missionId (m.putAllOn .memory missionId writes) ∧
          (postgres.putAll writes).Holds missionId (m'.putAllOn .postgres missionId writes) := by
  induction writes with
  | nil => exact fun hm hp => ⟨hm, hp⟩
  | cons w writes ih =>
    intro memory postgres m m' hm hp
    obtain ⟨hfirst, hrest⟩ := forall_mem_cons.mp hraw
    obtain ⟨key, result, raw⟩ := w
    rw [MissionState.putAllOn, MissionState.putAllOn, foldl_cons, foldl_cons]
    by_cases hkey : key = missionId
    · subst hkey
      obtain ⟨raw, rfl⟩ := isSome_iff_exists.mp (hfirst rfl)
      rw [if_pos rfl, if_pos rfl]
      exact ih hrest (hm.put result raw) (hp.put result raw)
    · rw [if_neg hkey, if_neg hkey]
      exact ih hrest (hm.put_other hkey) (hp.put_other hkey)

/-- A mission is completed, and its cancellation comes too late; another one is put in between. -/
def lateCancellation : List MissionPut :=
  [{ missionId := "m", result := { status := .completed }, raw := some { status := some .completed } },
    { missionId := "other", result := { status := .running } },
    { missionId := "m", result := { status := .cancelled }, raw := some { status := some .cancelled } }]

def seededPut : MissionPut where
  missionId := "m"
  result := { status := .running }
  raw := some { status := some .running }

theorem holds_putAll_lateCancellation :
    ((InMemoryMissionStore.put {} seededPut).putAll lateCancellation).Holds "m"
        (MissionState.putAllOn { result := { status := .running }, raw := { status := some .running } } .memory "m"
          lateCancellation) ∧
      ((PostgresMissionStore.put {} seededPut).putAll lateCancellation).Holds "m"
        (MissionState.putAllOn { result := { status := .running }, raw := { status := some .running } } .postgres "m"
          lateCancellation) :=
  holds_putAll lateCancellation (by simp [lateCancellation]) ⟨rfl, rfl, rfl⟩ ⟨rfl, rfl⟩

def Effect.put? : Effect → Option (MissionResult × RawMission)
  | .mission (.put result raw) => some (result, raw)
  | _ => Option.none

namespace World
variable (upper : String → String)

def missionPut? (w : World) : Action → Option (MissionResult × RawMission)
  | .execute key input =>
    (w.execs.get? key).bind fun e => (e.next upper w input).bind fun next => next.1.put?
  | .proceed id => (w.calls.get? id).bind fun c => (c.next w).bind fun next => next.1.put?
  | _ => none

def stepOn (store : StoreKind) (w : World) (action : Action) : Option World :=
  (w.step upper action).map fun after => match w.missionPut? upper action with
    | some (result, raw) => { after with mission := w.mission.putOn store result raw }
    | none => after

end World

/-- Where `submit_message` stands after its transaction. -/
inductive SubmitterPc where
  | reading
  | writing (result : MissionResult)
  | done

structure Handover where
  store : StoreKind
  world : World
  submitter : SubmitterPc := .reading

inductive HandoverStep where
  | submitter
  | world (action : Action)

namespace Handover
variable (upper : String → String)

/-- One worker claims the run, and its agent ends the mission. -/
def admits (h : Handover) : Action → Bool
  | .claim .. => h.world.execs.rows.isEmpty
  | .execute _ (.returns result) => result.status ≠ .running
  | _ => true

/-- The entries added to the seeded payload are not among those read back. -/
def step (h : Handover) : HandoverStep → Option Handover
  | .submitter =>
    match h.submitter with
    | .reading => some { h with submitter := .writing h.world.mission.result }
    | .writing result =>
      let mission := h.world.mission.putOn h.store result MissionState.seeded.raw
      some { h with world := { h.world with mission := mission }, submitter := .done }
    | .done => none
  | .world action =>
    if h.admits action then
      (h.world.stepOn upper h.store action).map fun after => { h with world := after }
    else none

def handsOver (h : Handover) : HandoverStep → Bool
  | .submitter =>
    match h.submitter with
    | .writing _ => !h.world.mission.status.concluded
    | _ => true
  | .world _ => true

end Handover

/-! Both copies agree whether the mission runs and whether it is cancelled. -/

def Matched (result : MissionResult) (raw : RawMission) : Prop :=
  ∃ status, raw.status = some status ∧ (status = .running ↔ result.status = .running) ∧
    (status = .cancelled ↔ result.status = .cancelled)

namespace MissionState
variable {m m' : MissionState} {result : MissionResult} {raw : RawMission}

structure Whole (m : MissionState) : Prop where
  payload : m.raw.status = some m.status
  running : m.status = .running ↔ m.result.status = .running
  cancelled : m.status = .cancelled ↔ m.result.status = .cancelled

theorem whole_of_matched (h : Matched m.result m.raw) : m.Whole := by
  obtain ⟨status, hst, hrun, hcancel⟩ := h
  have he : m.status = status := by simp [MissionState.status, hst]
  exact { payload := he ▸ hst, running := he ▸ hrun, cancelled := he ▸ hcancel }

theorem Whole.matched (h : m.Whole) : Matched m.result m.raw :=
  ⟨m.status, h.payload, h.running, h.cancelled⟩

/-- Over such a mission the two stores decide alike. -/
theorem Whole.put_eq_upsert (h : m.Whole) (result : MissionResult) (raw : RawMission) :
    m.put result raw = m.upsert result raw := by
  have hraw : m.raw.status = some .cancelled ↔ m.result.status = .cancelled := by
    rw [h.payload, Option.some.injEq]
    exact h.cancelled
  simp only [put, upsert, hraw, ne_eq, h.running]
  by_cases hc : result.status = .cancelled
  · by_cases hr : m.result.status = .running <;> simp [PostgresMissionStore.upserts, hc, hr]
  · by_cases hs : m.result.status = .cancelled <;> simp [PostgresMissionStore.upserts, hc, hs]

theorem Whole.putOn_eq (h : m.Whole) (store : StoreKind) (result : MissionResult) (raw : RawMission) :
    m.putOn store result raw = m.put result raw := by
  cases store with
  | memory => rfl
  | postgres => exact (h.put_eq_upsert result raw).symm

/-- A put over a cancelled mission, or one that keeps the copies together and does
not set a concluded mission running. -/
def Onward (m : MissionState) (result : MissionResult) (raw : RawMission) : Prop :=
  m.status = .cancelled ∨
    Matched result raw ∧ (m.status.concluded = true → result.status ≠ .running)

theorem Whole.put (h : m.Whole) (ho : m.Onward result raw) :
    (m.put result raw).Whole ∧ m.status.later (m.put result raw).status = true := by
  rw [h.put_eq_upsert, upsert]
  split
  next hu =>
    have hne : m.status ≠ .cancelled := by
      intro hc
      rw [h.cancelled.mp hc] at hu
      simp [PostgresMissionStore.upserts] at hu
    obtain hc | ⟨hmatched, honward⟩ := ho
    · exact absurd hc hne
    have hafter : Whole { m with result := result, raw := raw } := whole_of_matched hmatched
    refine ⟨hafter, MissionStatus.later_iff.mpr ?_⟩
    by_cases hrun : m.status = .running
    · exact Or.inl hrun
    have hconcluded := MissionStatus.concluded_iff.mpr ⟨hrun, hne⟩
    refine Or.inr (Or.inr ⟨hconcluded, MissionStatus.concluded_iff.mpr ⟨?_, ?_⟩⟩)
    · exact fun hr => honward hconcluded (hafter.running.mp hr)
    · intro hc
      have hres : result.status = .cancelled := hafter.cancelled.mp hc
      have hstored : m.result.status ≠ .running := fun hr => hrun (h.running.mpr hr)
      simp [PostgresMissionStore.upserts, hres, hstored] at hu
  next => exact ⟨h, MissionStatus.later_refl _⟩

/-- The status was read of the mission, which has at most been cancelled since. -/
def Seen (m : MissionState) (status : MissionStatus) : Prop :=
  m.status.concluded = status.concluded ∧ (status = .cancelled → m.status = .cancelled)

/-- The mission neither concludes nor changes from cancelled. -/
def Calm (m m' : MissionState) : Prop :=
  m'.status.concluded = m.status.concluded ∧ (m.status = .cancelled → m'.status = .cancelled)

theorem Seen.mono {status : MissionStatus} (h : m.Seen status) (hc : Calm m m') : m'.Seen status :=
  ⟨hc.1.trans h.1, fun hs => hc.2 (h.2 hs)⟩

theorem calm_of_status (h : m'.status = m.status) : Calm m m' := ⟨by rw [h], fun hc => h.trans hc⟩

/-- What has been read of the mission may be put back. -/
theorem Seen.onward {status : MissionStatus} (hst : raw.status = some status)
    (hraw : m.Seen status) (hresult : m.Seen result.status) : m.Onward result raw := by
  by_cases hc : m.status = .cancelled
  · exact Or.inl hc
  have hne : status ≠ .cancelled := fun hs => hc (hraw.2 hs)
  have hne' : result.status ≠ .cancelled := fun hs => hc (hresult.2 hs)
  have hsame : status.concluded = result.status.concluded := hraw.1.symm.trans hresult.1
  refine Or.inr ⟨⟨status, hst, ?_, by simp [hne, hne']⟩, ?_⟩
  · simpa [MissionStatus.concluded, hne, hne'] using hsame
  · intro hconcluded
    rw [hresult.1] at hconcluded
    exact (MissionStatus.concluded_iff.mp hconcluded).1

end MissionState

theorem AgentResult.matched (agent : AgentResult) (h : agent.status ≠ .running) :
    Matched agent.lookup agent.payload ∧ agent.lookup.status ≠ .running := by
  unfold lookup payload Matched
  cases hs : agent.status with
  | running => exact absurd hs h
  | completed | partialResult | failed => simp

theorem Pc.payload_of_read {pc : Pc} {result : MissionResult} (h : pc.read = some result) :
    ∃ raw, pc.payload = some raw := by
  cases pc with
  | markPut raw | rebundlePut raw => exact ⟨raw, rfl⟩
  | _ => cases h

/-- What an execution has read of the mission is still so. -/
structure RunExecution.Abreast (e : RunExecution) (m : MissionState) : Prop where
  payload : ∀ raw, e.pc.payload = some raw → ∃ status, raw.status = some status ∧ m.Seen status
  result : ∀ result, e.pc.read = some result → m.Seen result.status

namespace RunExecution
variable {upper : String → String} {w : World} {e : RunExecution} {input : Input} {pc : Pc}
  {m m' : MissionState} {result : MissionResult} {raw : RawMission}

theorem Abreast.mono (h : e.Abreast m) (hc : MissionState.Calm m m') : e.Abreast m' where
  payload raw hraw := by
    obtain ⟨status, hst, hseen⟩ := h.payload raw hraw
    exact ⟨status, hst, hseen.mono hc⟩
  result result hresult := (h.result result hresult).mono hc

theorem Abreast.onward (he : e.Abreast w.mission)
    (hends : ∀ agent, input = .returns agent → agent.status ≠ .running)
    (h : e.next upper w input = some (.mission (.put result raw), pc)) :
    w.mission.Onward result raw := by
  have hcarried (raw₀ : RawMission) (hpc : e.pc.payload = some raw₀) (hread : e.pc.read = some result)
      (hst : raw.status = raw₀.status) : w.mission.Onward result raw := by
    obtain ⟨status, hst₀, hseen⟩ := he.payload raw₀ hpc
    exact MissionState.Seen.onward (hst.trans hst₀) hseen (he.result result hread)
  cases moves h with
  | rests idle plain => cases plain
  | keeps status before after payload landed plain => cases plain
  | cancels raw =>
    refine Or.inr ⟨⟨.cancelled, rfl, ?_, ?_⟩, fun _ => ?_⟩ <;> simp [CancelStage.cancelledResult]
  | answers agent =>
    obtain ⟨hmatched, hne⟩ := agent.matched (hends agent rfl)
    exact Or.inr ⟨hmatched, fun _ => hne⟩
  | drops error =>
    exact Or.inr ⟨⟨.failed, rfl, by simp [AgentError.failedResult], by simp [AgentError.failedResult]⟩,
      by simp [AgentError.failedResult]⟩
  | puts raw₀ result stage => exact hcarried raw₀ (by rw [stage]; rfl) (by rw [stage]; rfl) rfl
  | repeats _ _ stage => exact hcarried raw (by rw [stage]; rfl) (by rw [stage]; rfl) rfl

end RunExecution

namespace MissionState
variable {m : MissionState} {result : MissionResult} {raw : RawMission}

/-- What has been read of a mission and put back leaves it as it is, as far as its end is concerned. -/
theorem Whole.calm_put (h : m.Whole) {status : MissionStatus} (hst : raw.status = some status)
    (hraw : m.Seen status) (hresult : m.Seen result.status) : Calm m (m.put result raw) := by
  obtain ⟨hafter, hlater⟩ := h.put (Seen.onward hst hraw hresult)
  refine ⟨?_, fun hc => MissionStatus.eq_cancelled_of_later (hc ▸ hlater)⟩
  rw [h.put_eq_upsert, upsert]
  split
  · simpa [MissionState.status, hst] using hraw.1.symm
  · rfl

theorem Whole.calm_cancel (h : m.Whole) (raw : RawMission) :
    Calm m (m.put CancelStage.cancelledResult (CancelStage.cancelledPayload raw)) := by
  rw [h.put_eq_upsert, upsert]
  split
  next hu =>
    have hrun : m.status = .running := by
      simpa [PostgresMissionStore.upserts, CancelStage.cancelledResult, h.running] using hu
    refine ⟨?_, fun hc => ?_⟩
    · rw [hrun]
      rfl
    · rw [hrun] at hc
      cases hc
  next => exact calm_of_status rfl

end MissionState

namespace World
variable {upper : String → String} {w w' : World} {action : Action} {store : StoreKind}

theorem stepOn_eq (h : w.mission.Whole) (store : StoreKind) (action : Action) :
    w.stepOn upper store action = w.step upper action := by
  rw [stepOn]
  cases hstep : w.step upper action with
  | none => rfl
  | some w' =>
    rw [map_some, Option.some.injEq]
    cases stepped hstep with
    | executed input e effect pc mem next =>
      simp only [missionPut?, Table.get?_of_mem mem, bind_some, next]
      cases effect with
      | mission op =>
        cases op with
        | put result raw => simp [Effect.put?, h.putOn_eq, perform, MissionState.perform]
        | flag => rfl
      | _ => rfl
    | proceeded c effect pc mem next =>
      simp only [missionPut?, Table.get?_of_mem mem, bind_some, next]
      cases effect with
      | mission op =>
        cases op with
        | put result raw => simp [Effect.put?, h.putOn_eq, perform, MissionState.perform]
        | flag => rfl
      | _ => rfl
    | _ => rfl

/-- The mission of a run with one execution. -/
structure Settling (w : World) : Prop where
  whole : w.mission.Whole
  single : w.execs.rows.length ≤ 1
  abreast : ∀ e ∈ w.execs.rows, e.Abreast w.mission

def EndsMission : Action → Prop
  | .execute _ (.returns agent) => agent.status ≠ .running
  | _ => True

section
variable (hs : Settling w)
include hs

theorem Settling.mission (hends : EndsMission action) (h : MissionStep upper w action w') :
    w'.mission.Whole ∧ w.mission.status.later w'.mission.status = true := by
  cases h with
  | kept same =>
    rw [same]
    exact ⟨hs.whole, MissionStatus.later_refl _⟩
  | flagged runs status raw result =>
    refine ⟨MissionState.whole_of_matched ?_, by rw [status]; exact MissionStatus.later_refl _⟩
    rw [result, raw]
    exact hs.whole.matched
  | cancelled runs raw put =>
    rw [put]
    refine hs.whole.put (Or.inr ⟨⟨.cancelled, rfl, ?_, ?_⟩, fun _ => ?_⟩) <;>
      simp [CancelStage.cancelledResult]
  | put runs input e result raw pc asked mem next put =>
    rw [put]
    refine hs.whole.put ((hs.abreast e mem).onward ?_ next)
    rintro agent rfl
    subst asked
    exact hends

theorem Settling.calm (h : MissionStep upper w action w')
    (hother : ∀ e ∈ w.execs.rows, ∀ input, action ≠ .execute e.claim input) :
    MissionState.Calm w.mission w'.mission := by
  cases h with
  | kept same => exact MissionState.calm_of_status (by rw [same])
  | flagged runs status => exact MissionState.calm_of_status status
  | cancelled runs raw put => exact put ▸ hs.whole.calm_cancel raw
  | put runs input e result raw pc asked mem => exact absurd asked (hother e mem input)

theorem Settling.eq {e e' : RunExecution} (he : e ∈ w.execs.rows) (he' : e' ∈ w.execs.rows) : e = e' := by
  have hlength := hs.single
  cases hrows : w.execs.rows with
  | nil => simp [hrows] at he
  | cons a rows =>
    rw [hrows, length_cons] at hlength
    obtain rfl := length_eq_zero_iff.mp (Nat.le_zero.mp (Nat.le_of_succ_le_succ hlength))
    rw [hrows] at he he'
    rw [mem_singleton.mp he, mem_singleton.mp he']

theorem Settling.calm_own {e : RunExecution} (he : e ∈ w.execs.rows) {input : Input} {effect : Effect} {pc : Pc}
    (h : e.next upper w input = some (effect, pc)) {raw : RawMission} (hraw : pc.payload = some raw)
    (author : Author) : MissionState.Calm w.mission (w.perform author effect).mission := by
  cases effect with
  | mission op =>
    cases op with
    | flag backend requested => cases backend <;> exact MissionState.calm_of_status rfl
    | put result raw' =>
      cases RunExecution.moves h with
      | rests idle plain => cases plain
      | keeps status before after payload landed plain => cases plain
      | cancels raw idle => cases (RunExecution.idle_iff.mp idle).1.symm.trans hraw
      | answers | drops | puts => cases hraw
      | repeats _ _ stage =>
        obtain ⟨status, hst, hseen⟩ := (hs.abreast e he).payload raw' (by rw [stage]; rfl)
        exact hs.whole.calm_put hst hseen ((hs.abreast e he).result result (by rw [stage]; rfl))
  | _ => exact MissionState.calm_of_status rfl

theorem Settling.abreast_step (h : Stepped upper w action w') : ∀ e ∈ w'.execs.rows, e.Abreast w'.mission := by
  intro e' he'
  obtain ⟨he, hother⟩ | ⟨_, _, _, _, _, _, _, _, _, rfl⟩ |
    ⟨input, e, effect, pc, rfl, he, hnext, rfl, rfl⟩ := h.mem_execs he'
  · have hcalm := hs.calm h.mission fun e hmem input hact => hother _ _ hact (by rw [hs.eq hmem he])
    exact (hs.abreast e' he).mono hcalm
  · exact ⟨fun _ he => absurd he.symm (some_ne_none _),
      fun _ he => absurd he.symm (some_ne_none _)⟩
  · have hmoves := RunExecution.moves hnext
    constructor
    · intro raw hraw
      obtain hbefore | ⟨rfl, rfl, -⟩ := hmoves.payload hraw
      · obtain ⟨status, hst, hseen⟩ := (hs.abreast e he).payload raw hbefore
        exact ⟨status, hst, hseen.mono (hs.calm_own he hnext hraw _)⟩
      · exact ⟨_, hs.whole.payload, rfl, id⟩
    · intro result hresult
      obtain ⟨raw, hraw⟩ := Pc.payload_of_read hresult
      obtain hbefore | ⟨rfl, rfl⟩ := hmoves.read hresult
      · exact ((hs.abreast e he).result result hbefore).mono (hs.calm_own he hnext hraw _)
      · refine ⟨?_, hs.whole.cancelled.mpr⟩
        change w.mission.status.concluded = w.mission.result.status.concluded
        simp [MissionStatus.concluded, hs.whole.running, hs.whole.cancelled]

theorem Settling.single_step (h : Stepped upper w action w')
    (hclaim : ∀ workerId lease moment, action = .claim workerId lease moment → w.execs.rows = []) :
    w'.execs.rows.length ≤ 1 := by
  cases h with
  | claimed workerId lease moment run attempt =>
    have hempty := hclaim workerId lease moment rfl
    have hnone (key : Claim) : w.execs.get? key = none := by
      rw [Table.get?_eq_none_iff, hempty]
      simp
    simp [Table.put_rows_of_none (hnone _), hempty]
  | executed input e effect pc mem next =>
    have hget : w.execs.get? ({ e with pc := pc, wrote := e.wrote || effect.writes } :
        RunExecution).claim = some e := Table.get?_of_mem mem
    simpa [Table.put_rows_of_get? hget, Table.replace] using hs.single
  | outside | recovered | cancelledRun | cancelledMission | proceeded => simpa using hs.single

theorem Settling.step (h : Stepped upper w action w') (hends : EndsMission action)
    (hclaim : ∀ workerId lease moment, action = .claim workerId lease moment → w.execs.rows = []) :
    Settling w' ∧ w.mission.status.later w'.mission.status = true := by
  obtain ⟨hwhole, hlater⟩ := hs.mission hends h.mission
  exact ⟨⟨hwhole, hs.single_step h hclaim, hs.abreast_step h⟩, hlater⟩

end

end World

namespace MissionState
variable {m : MissionState}

theorem Whole.reportsTerminal_iff (h : m.Whole) : m.reportsTerminal = true ↔ m.status ≠ .running := by
  simp [reportsTerminal, h.payload, h.running]

theorem Whole.reportsRunning_iff (h : m.Whole) : m.reportsRunning = true ↔ m.status = .running := by
  simp [reportsRunning, h.payload, h.running]

theorem seeded_whole : seeded.Whole where
  payload := rfl
  running := by simp [seeded, status]
  cancelled := by simp [seeded, status]

def Held (m : MissionState) (result : MissionResult) : Prop :=
  result.status ≠ .running → result.status.later m.status = true

theorem Held.onward {result : MissionResult} (h : m.Held result) (hopen : m.status.concluded = false) :
    m.Onward result seeded.raw := by
  by_cases hrun : result.status = .running
  · refine Or.inr ⟨⟨.running, rfl, by simp [hrun], by simp [hrun]⟩, fun hc => ?_⟩
    rw [hopen] at hc
    cases hc
  obtain hr | he | ⟨-, hc⟩ := MissionStatus.later_iff.mp (h hrun)
  · exact absurd hr hrun
  · left
    by_contra hc
    rw [MissionStatus.concluded_iff.mpr ⟨he ▸ hrun, hc⟩] at hopen
    cases hopen
  · rw [hopen] at hc
    cases hc

theorem Whole.held (h : m.Whole) : m.Held m.result := by
  intro hne
  have hrun : m.status ≠ .running := fun hr => hne (h.running.mp hr)
  rw [MissionStatus.later_iff]
  by_cases hc : m.status = .cancelled
  · exact Or.inr (Or.inl (hc.trans (h.cancelled.mp hc).symm))
  · have hc' : m.result.status ≠ .cancelled := fun hr => hc (h.cancelled.mpr hr)
    exact Or.inr (Or.inr ⟨MissionStatus.concluded_iff.mpr ⟨hne, hc'⟩, MissionStatus.concluded_iff.mpr ⟨hrun, hc⟩⟩)

theorem Whole.calm_reseed (h : m.Whole) {result : MissionResult} (hopen : m.status.concluded = false) :
    Calm m (m.put result seeded.raw) ∧ (m.status ≠ .running → m.put result seeded.raw = m) := by
  by_cases hrun : m.status = .running
  · refine ⟨⟨?_, fun hc => ?_⟩, fun hne => absurd hrun hne⟩
    · rw [h.put_eq_upsert, upsert, hrun]
      split
      · rfl
      · rw [hrun]
    · rw [hrun] at hc
      cases hc
  · have hc : m.status = .cancelled := by
      by_contra hc
      rw [MissionStatus.concluded_iff.mpr ⟨hrun, hc⟩] at hopen
      cases hopen
    have hkept : m.put result seeded.raw = m := by
      rw [h.put_eq_upsert, upsert, h.cancelled.mp hc]
      simp [PostgresMissionStore.upserts]
    rw [hkept]
    exact ⟨calm_of_status rfl, fun _ => rfl⟩

end MissionState

namespace Handover
variable {upper : String → String} {h h' : Handover} {a : HandoverStep}

structure Handed (h : Handover) : Prop where
  settling : h.world.Settling
  held : ∀ result, h.submitter = .writing result → h.world.mission.Held result

theorem submitted_handed (store : StoreKind) (s : RunRepository) (new : SubmittedRun) :
    Handed { store := store, world := .submitted s new } where
  settling :=
    { whole := MissionState.seeded_whole
      single := by simp [World.submitted]
      abreast := by simp [World.submitted] }
  held _ he := by cases he

theorem Handed.step (hs : Handed h) (hok : h.handsOver a = true) (hstep : h.step upper a = some h') :
    Handed h' ∧ h.world.mission.status.later h'.world.mission.status = true := by
  obtain ⟨hw, hheld⟩ := hs
  cases a with
  | submitter =>
    cases hsub : h.submitter with
    | reading =>
      simp only [Handover.step, hsub, Option.some.injEq] at hstep
      subst hstep
      refine ⟨⟨hw, fun result he => ?_⟩, MissionStatus.later_refl _⟩
      obtain rfl := SubmitterPc.writing.inj he
      exact hw.whole.held
    | writing result =>
      have hopen : h.world.mission.status.concluded = false := by simpa [handsOver, hsub] using hok
      simp only [Handover.step, hsub, Option.some.injEq, hw.whole.putOn_eq] at hstep
      subst hstep
      obtain ⟨hwhole, hlater⟩ := hw.whole.put ((hheld result hsub).onward hopen)
      obtain ⟨hcalm, -⟩ : MissionState.Calm h.world.mission
          (h.world.mission.put result MissionState.seeded.raw) ∧ _ := hw.whole.calm_reseed hopen
      refine ⟨⟨⟨hwhole, hw.single, fun e he => (hw.abreast e he).mono hcalm⟩, nofun⟩, hlater⟩
    | done => simp [Handover.step, hsub] at hstep
  | world action =>
    simp only [Handover.step, World.stepOn_eq hw.whole, ite_none_right_eq_some,
      map_eq_some_iff] at hstep
    obtain ⟨hadmits, after, hafter, rfl⟩ := hstep
    have hends : World.EndsMission action := by
      cases action with
      | execute key input =>
        cases input with
        | returns agent => simpa [admits, World.EndsMission] using hadmits
        | _ => trivial
      | _ => trivial
    obtain ⟨hsettling, hlater⟩ := hw.step (World.stepped hafter) hends fun _ _ _ he => by
      subst he
      simpa [admits] using hadmits
    exact ⟨⟨hsettling, fun result he hne => MissionStatus.later_trans (hheld result he hne) hlater⟩, hlater⟩

/-- Once the mission has been reported as ended it is not reported as running, and
the submitter leaves it alone. -/
structure Finished (upper : String → String) (h₀ : Handover) (steps : List HandoverStep) : Prop where
  ended : ∀ before between after h h', steps = before ++ (between ++ after) →
    Machine.exec (step upper) h₀ before = some h → Machine.exec (step upper) h between = some h' →
    h.world.mission.reportsTerminal = true → h'.world.mission.reportsRunning = false
  kept : ∀ before after h h', steps = before ++ .submitter :: after →
    Machine.exec (step upper) h₀ before = some h → h.step upper .submitter = some h' →
    h.world.mission.reportsTerminal = true → h'.world.mission = h.world.mission

theorem Handed.exec (hs : Handed h) {steps : List HandoverStep}
    (hok : Machine.Along (Handover.step upper) (fun h a => h.handsOver a = true) h steps)
    (he : Machine.exec (Handover.step upper) h steps = some h') :
    Handed h' ∧ h.world.mission.status.later h'.world.mission.status = true :=
  Machine.invariant_along
    (I := fun h' => Handed h' ∧ h.world.mission.status.later h'.world.mission.status = true)
    (fun _ _ _ hs' hok hstep => by
      obtain ⟨hnext, hlater⟩ := hs'.1.step hok hstep
      exact ⟨hnext, MissionStatus.later_trans hs'.2 hlater⟩)
    ⟨hs, MissionStatus.later_refl _⟩ hok he

theorem handed_until_done {store : StoreKind} {s : RunRepository} {new : SubmittedRun}
    {steps : List HandoverStep}
    (he : Machine.exec (step upper) { store := store, world := .submitted s new } steps = some h)
    (hsub : h.submitter ≠ .done) : Handed h := by
  refine Machine.invariant (I := fun h => h.submitter ≠ .done → Handed h) ?_
    (fun _ => submitted_handed store s new) he hsub
  intro h a h' hs hstep hne
  have hok : h.submitter ≠ .done ∧ h.handsOver a = true := by
    cases a with
    | world action =>
      simp only [step, ite_none_right_eq_some, map_eq_some_iff] at hstep
      obtain ⟨-, after, -, rfl⟩ := hstep
      exact ⟨hne, rfl⟩
    | submitter =>
      cases hsub : h.submitter with
      | reading => exact ⟨nofun, by simp [handsOver, hsub]⟩
      | writing result =>
        simp only [step, hsub, Option.some.injEq] at hstep
        subst hstep
        exact absurd rfl hne
      | done => simp [step, hsub] at hstep
  exact ((hs hok.1).step hok.2 hstep).1

theorem Handed.reseeds (hs : Handed h) {result : MissionResult} (hsub : h.submitter = .writing result)
    (hc : h.world.mission.status.concluded = true) : ∃ h', h.step upper .submitter = some h' ∧
      h'.world.mission.raw = MissionState.seeded.raw := by
  obtain ⟨hrun, hcancel⟩ := MissionStatus.concluded_iff.mp hc
  have hw := hs.settling.whole
  have hstored : h.world.mission.result.status ≠ .cancelled := fun hr => hcancel (hw.cancelled.mpr hr)
  have hresult : result.status ≠ .cancelled := by
    intro hr
    have hlater := hs.held result hsub (by simp [hr])
    rw [hr] at hlater
    exact hcancel (MissionStatus.eq_cancelled_of_later hlater)
  refine ⟨_, by simp only [Handover.step, hsub]; rfl, ?_⟩
  simp [hw.putOn_eq, hw.put_eq_upsert, MissionState.upsert, PostgresMissionStore.upserts, hstored, hresult]

/-- A finished mission stays finished exactly in the runs in which the submitter
does not put its payload over a concluded one. -/
theorem finished_iff (upper : String → String) (store : StoreKind) (s : RunRepository)
    (new : SubmittedRun) (steps : List HandoverStep) :
    Finished upper { store := store, world := .submitted s new } steps ↔
      Machine.Along (step upper) (fun h a => h.handsOver a = true)
        { store := store, world := .submitted s new } steps := by
  constructor
  · intro hf
    rw [Machine.along_iff]
    intro before a after h he hexec
    cases a with
    | world action => rfl
    | submitter =>
      cases hsub : h.submitter with
      | reading => simp [handsOver, hsub]
      | done => simp [handsOver, hsub]
      | writing result =>
        rw [handsOver, hsub]
        by_contra hopen
        have hc : h.world.mission.status.concluded = true := by simpa using hopen
        have hs : Handed h := handed_until_done hexec (by simp [hsub])
        obtain ⟨h', hstep, hraw⟩ : ∃ h', h.step upper .submitter = some h' ∧ _ := hs.reseeds hsub hc
        have hne := (MissionStatus.concluded_iff.mp hc).1
        have hkept := hf.kept before after h h' he hexec hstep (hs.settling.whole.reportsTerminal_iff.mpr hne)
        have hst : MissionState.seeded.raw.status = some h.world.mission.status := by
          rw [← hraw, hkept, hs.settling.whole.payload]
        exact hne (Option.some.inj hst).symm
  · intro hok
    constructor
    case ended =>
      intro before between after h h' he hbefore hbetween hended
      rw [he, Machine.along_append] at hok
      obtain ⟨hs, -⟩ := (submitted_handed store s new).exec hok.1 hbefore
      obtain ⟨hs', hlater⟩ := hs.exec (Machine.along_append.mp (hok.2 h hbefore)).1 hbetween
      have hne := hs.settling.whole.reportsTerminal_iff.mp hended
      rw [Bool.eq_false_iff, Ne, hs'.settling.whole.reportsRunning_iff]
      exact MissionStatus.ne_running_of_later hlater hne
    case kept =>
      intro before after h h' he hbefore hstep hended
      rw [he, Machine.along_append] at hok
      obtain ⟨hs, -⟩ := (submitted_handed store s new).exec hok.1 hbefore
      have hover := (hok.2 h hbefore).1
      have hne := hs.settling.whole.reportsTerminal_iff.mp hended
      cases hsub : h.submitter with
      | reading =>
        simp only [step, hsub, Option.some.injEq] at hstep
        rw [← hstep]
      | done => simp [step, hsub] at hstep
      | writing result =>
        have hopen : h.world.mission.status.concluded = false := by simpa [handsOver, hsub] using hover
        simp only [step, hsub, Option.some.injEq, hs.settling.whole.putOn_eq] at hstep
        rw [← hstep]
        exact (hs.settling.whole.calm_reseed hopen).2 hne

/-! The worker answers between the submitter's read and its put. -/

def sampleHandover (store : StoreKind) : Handover where
  store := store
  world := .submitted {} (sampleRun ⟨1, Nat.one_pos⟩)

def answeredInBetween : List HandoverStep :=
  [.submitter, .world (.claim "a" 60 0)] ++ (nextSteps firstClaim 8).map .world ++
    [.world (.execute firstClaim (.returns { status := .completed, finalResponse := "42" }))]

theorem not_finished_of {store : StoreKind} {steps : List HandoverStep}
    (hrun : (Machine.exec (step id) (sampleHandover store) steps).any (fun h =>
      h.world.mission.reportsTerminal &&
        (h.step id .submitter).any (·.world.mission.reportsRunning)) = true) :
    ¬ Finished id (sampleHandover store) (steps ++ [.submitter]) := by
  intro hf
  obtain ⟨h, he, hrun⟩ := (Option.any_eq_true _ _).mp hrun
  obtain ⟨hended, hrun⟩ := Bool.and_eq_true_iff.mp hrun
  obtain ⟨h', hstep, hrun⟩ := (Option.any_eq_true _ _).mp hrun
  have hnot := hf.ended steps [.submitter] [] h h' (by simp) he (by simp [Machine.exec, hstep]) hended
  rw [hrun] at hnot
  cases hnot

theorem answer_replaced_by_placeholder :
    (Machine.exec (step id) (sampleHandover .memory) answeredInBetween).any (fun h =>
      h.world.mission.raw.finalResponse = some "42" && (h.step id .submitter).any fun h' =>
        h'.world.mission.raw.finalResponse = none && h'.world.mission.reportsRunning) = true ∧
    ¬ Finished id (sampleHandover .memory) (answeredInBetween ++ [.submitter]) ∧
    ¬ Finished id (sampleHandover .postgres) (answeredInBetween ++ [.submitter]) :=
  ⟨by decide, not_finished_of (by decide), not_finished_of (by decide)⟩

end Handover

end SelericSwarm
