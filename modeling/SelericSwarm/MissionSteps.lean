import SelericSwarm.PendingReply

/-! What one step of an execution or of a cancel call does to the mission, and
what it carries on of a mission it has read. -/
namespace SelericSwarm
open Keyed RunRepository

namespace MissionStatus

def runStatus? : MissionStatus → Option RunStatus
  | .completed | .partialResult => some .completed
  | .failed => some .failed
  | .cancelled => some .cancelled
  | _ => none

/-- What the store may show some time after the first status. -/
def later (status next : MissionStatus) : Bool :=
  status = .running || next = status || (status.concluded && next.concluded)

@[simp] theorem later_refl (status : MissionStatus) : status.later status = true := by simp [later]

variable {a b : MissionStatus}

theorem later_iff : a.later b = true ↔ a = .running ∨ b = a ∨ a.concluded = true ∧ b.concluded = true := by
  simp [later, or_assoc]

theorem concluded_iff : a.concluded = true ↔ a ≠ .running ∧ a ≠ .cancelled := by
  simp [concluded]

theorem concluded_of_later (h : a.later b = true) (ha : a.concluded = true) : b.concluded = true := by
  obtain rfl | rfl | ⟨-, hb⟩ := later_iff.mp h
  · cases ha
  · exact ha
  · exact hb

theorem ne_running_of_later (h : a.later b = true) (ha : a ≠ .running) : b ≠ .running := by
  obtain hr | rfl | ⟨-, hb⟩ := later_iff.mp h
  · exact absurd hr ha
  · exact ha
  · exact (concluded_iff.mp hb).1

theorem later_trans {c : MissionStatus} (hab : a.later b = true) (hbc : b.later c = true) : a.later c = true := by
  obtain rfl | rfl | ⟨ha, hb⟩ := later_iff.mp hab
  · rfl
  · exact hbc
  · exact later_iff.mpr (Or.inr (Or.inr ⟨ha, concluded_of_later hbc hb⟩))

theorem eq_cancelled_of_later (h : MissionStatus.cancelled.later b = true) : b = .cancelled := by
  obtain hr | rfl | ⟨hc, -⟩ := later_iff.mp h
  · cases hr
  · rfl
  · cases hc

end MissionStatus

theorem RawMission.runStatus_of {raw : RawMission} {status : MissionStatus} {r : RunStatus}
    (h : raw.status = some status) (hr : status.runStatus? = some r) : raw.runStatus.1 = r := by
  cases status with
  | completed | partialResult | failed | cancelled =>
    rw [RawMission.runStatus, h]
    exact Option.some.inj hr
  | _ => cases hr

namespace MissionState
variable {m : MissionState} {result : MissionResult} {raw : RawMission} {status : MissionStatus}

/-- The shape of every stored mission. -/
structure Stated (m : MissionState) : Prop where
  payload : m.raw.status = some m.status
  known : m.status = .running ∨ m.status.runStatus?.isSome
  result : m.result.status = .cancelled → m.status = .cancelled
  silent : m.status = .cancelled → m.raw.finalResponse = none

/-- A put that keeps the shape. -/
structure Fits (m : MissionState) (result : MissionResult) (raw : RawMission) (status : MissionStatus) :
    Prop where
  payload : raw.status = some status
  known : status.runStatus?.isSome
  cancelled : m.status = .cancelled ∨ (result.status = .cancelled ↔ status = .cancelled)
  silent : status = .cancelled → raw.finalResponse = none

theorem seeded_stated : Stated seeded where
  payload := rfl
  known := Or.inl rfl
  result := nofun
  silent := nofun

section
variable (hm : m.Stated) (h : Fits m result raw status)
include hm h

/-- A put is refused, or replaces a mission that is not cancelled; it cancels only a running one. -/
theorem put_cases : m.put result raw = m ∨ m.put result raw = { m with result := result, raw := raw } ∧
      (m.put result raw).status = status ∧ m.status ≠ .cancelled ∧
      (result.status = .cancelled ↔ status = .cancelled) ∧ (status = .cancelled → m.status = .running) := by
  unfold put
  split
  · exact Or.inl rfl
  next hraw =>
    split
    · exact Or.inl rfl
    split
    · exact Or.inl rfl
    next hrun =>
      have hne : m.status ≠ .cancelled := by
        intro hc
        rw [hm.payload, hc] at hraw
        simp only [true_and, not_not] at hraw
        simp [hraw, hc] at hrun
      have hiff := h.cancelled.resolve_left hne
      refine Or.inr ⟨rfl, by simp [MissionState.status, h.payload], hne, hiff, fun hs => ?_⟩
      simpa [hiff.mpr hs] using hrun

theorem put_later : m.status.later (m.put result raw).status = true := by
  obtain he | ⟨-, hst, hne, -, hrun⟩ := put_cases hm h
  · simp [he]
  rw [hst, MissionStatus.later_iff]
  by_cases hr : m.status = .running
  · exact Or.inl hr
  · have hc : status ≠ .cancelled := fun hc => hr (hrun hc)
    have hn : status ≠ .running := by
      rintro rfl
      cases h.known
    exact Or.inr (Or.inr ⟨MissionStatus.concluded_iff.mpr ⟨hr, hne⟩, MissionStatus.concluded_iff.mpr ⟨hn, hc⟩⟩)

theorem put_stated : (m.put result raw).Stated := by
  obtain he | ⟨he, hst, -, hiff, -⟩ := put_cases hm h
  · rw [he]
    exact hm
  refine { payload := ?_, known := Or.inr (hst ▸ h.known), result := ?_, silent := ?_ }
  · rw [hst, he, h.payload]
  · rw [hst, he]
    exact hiff.mp
  · rw [hst, he]
    exact h.silent

end

/-- The put would give the mission another status by other means than a cancellation. -/
def overwrittenBy (m : MissionState) : MissionOp → Bool
  | .put result raw => result.status ≠ .cancelled && m.status ≠ .cancelled && raw.status ≠ some m.status
  | .flag .. => false

theorem put_kept (hm : m.Stated) (h : Fits m result raw status)
    (hkeep : m.overwrittenBy (.put result raw) = false) :
    (m.put result raw).status = m.status ∨
      m.status = .running ∧ (m.put result raw).status = .cancelled := by
  obtain he | ⟨-, hst, hne, hiff, hrun⟩ := put_cases hm h
  · exact Or.inl (by rw [he])
  rw [hst]
  by_cases hc : status = .cancelled
  · exact Or.inr ⟨hrun hc, hc⟩
  · have hres : result.status ≠ .cancelled := fun hr => hc (hiff.mp hr)
    left
    simpa [overwrittenBy, hres, hne, h.payload] using hkeep

end MissionState

/-! What an execution carries on. -/

namespace Pc

def payload : Pc → Option RawMission
  | .markGet raw | .markPut raw _ | .rebundleGet raw | .rebundlePut raw _ | .ingesting raw
  | .deciding raw => some raw
  | .writing decision => some decision.raw
  | _ => none

/-- The same, once the job has returned and until the decision. -/
def collected : Pc → Option RawMission
  | .rebundleGet raw | .rebundlePut raw _ | .ingesting raw | .deciding raw => some raw
  | _ => none

def read : Pc → Option MissionResult
  | .markPut _ result | .rebundlePut _ result => some result
  | _ => none

/-- The status it means to end the run with. -/
def verdict : Pc → Option TerminalStatus
  | .writing decision | .announcing decision | .artifacts decision => some decision.status
  | .returned outcome | .confirming outcome => some outcome.status
  | .finalizing _ status => some status
  | _ => none

/-- The agent's own result has been put. -/
def landed : Pc → Bool
  | .asking .afterAgent _ | .discarding .afterAgent | .cancelling .afterAgent _ | .marking => true
  | _ => false

/-- It has a cancellation of the mission still to write. -/
def unwritten : Pc → Bool
  | .cancelling _ stage => stage.unwritten
  | _ => false

def idle (pc : Pc) : Bool := pc.payload.isNone && pc.read.isNone && pc.verdict.isNone

end Pc

def Effect.plain : Effect → Bool
  | .mission (.put ..) | .mission (.flag .runtime true) => false
  | _ => true

theorem CancelStage.next_cases (m : MissionState) (stage : CancelStage) :
    (∃ raw, stage = .writing raw ∧
      stage.next m = (some (.put cancelledResult (cancelledPayload raw)), .stage .verifying)) ∨
    (stage = .requesting .runtime ∧ stage.next m = (some (.flag .runtime true), .stage .rechecking)) ∨
    ((stage.next m).1.elim Effect.none Effect.mission).plain = true ∧
      (stage.unwritten = true → m.status = .running →
        ∃ after, (stage.next m).2 = .stage after ∧ after.unwritten = true) := by
  cases stage with
  | writing raw => exact Or.inl ⟨raw, rfl, rfl⟩
  | requesting backend =>
    cases backend with
    | runtime => exact Or.inr (Or.inl ⟨rfl, rfl⟩)
    | default => exact Or.inr (Or.inr ⟨rfl, fun _ _ => ⟨_, rfl, rfl⟩⟩)
  | checking | rechecking =>
    refine Or.inr (Or.inr ⟨?_, fun _ hrun => ?_⟩)
    · by_cases hrun : m.status = .running <;> simp [next, hrun, Effect.plain]
    · exact ⟨_, by rw [next, if_pos hrun], rfl⟩
  | verifying =>
    refine Or.inr (Or.inr ⟨?_, nofun⟩)
    by_cases hc : m.status = .cancelled <;> simp [next, hc, Effect.plain]
  | clearing backend error => cases backend <;> exact Or.inr (Or.inr ⟨rfl, nofun⟩)

namespace RunExecution

/-- The steps of an execution, as far as the mission is concerned. -/
inductive Moves (upper : String → String) (w : World) (e : RunExecution) : Input → Effect → Pc → Prop where
  | stays {input : Input} (op : RunOp) : Moves upper w e input (.call op) e.pc
  | rests {input : Input} {effect : Effect} {pc : Pc} (idle : pc.idle = true) (plain : effect.plain = true)
      (landed : pc.landed = true → e.pc.landed = true)
      (unwritten : e.pc.unwritten = true → pc.unwritten = true ∨ w.mission.status ≠ .running) :
      Moves upper w e input effect pc
  | requests {input : Input} {pc : Pc} (idle : pc.idle = true)
      (landed : pc.landed = true → e.pc.landed = true) (unwritten : pc.unwritten = true) :
      Moves upper w e input (.mission (.flag .runtime true)) pc
  | cancels {input : Input} {pc : Pc} (raw : RawMission) (idle : pc.idle = true)
      (landed : pc.landed = true → e.pc.landed = true) :
      Moves upper w e input (.mission (.put CancelStage.cancelledResult (CancelStage.cancelledPayload raw))) pc
  | answers (result : AgentResult) (stage : e.pc = .agent) :
      Moves upper w e (.returns result) (.mission (.put result.lookup result.payload))
        (.asking .afterAgent .default)
  | drops {input : Input} (error : AgentError) (stage : e.pc = .dropping error) :
      Moves upper w e input (.mission (.put AgentError.failedResult error.failedPayload)) (.clearing .default)
  | marks {input : Input} (stage : e.pc = .marking) : Moves upper w e input .none (.markGet w.mission.raw)
  | gets {input : Input} (raw : RawMission) (stage : e.pc = .markGet raw) :
      Moves upper w e input .none (.markPut raw w.mission.result)
  | puts {input : Input} (raw : RawMission) (result : MissionResult) (stage : e.pc = .markPut raw result) :
      Moves upper w e input (.mission (.put result { raw with route := some "v3" })) (.clearing .default)
  | collects {pc : Pc} (moment : Moment) (hex : String) (stage : e.pc = .collecting)
      (after : pc = .rebundleGet w.mission.raw ∨ pc = .ingesting w.mission.raw) :
      Moves upper w e (.next moment hex) .none pc
  | rebundles {input : Input} (raw : RawMission) (stage : e.pc = .rebundleGet raw) :
      Moves upper w e input .none (.rebundlePut raw w.mission.result)
  | repeats {input : Input} (raw : RawMission) (result : MissionResult)
      (stage : e.pc = .rebundlePut raw result) :
      Moves upper w e input (.mission (.put result raw)) (.ingesting raw)
  | ingests {input : Input} (raw : RawMission) (stage : e.pc = .ingesting raw) :
      Moves upper w e input .none (.deciding raw)
  | decides {input : Input} (raw : RawMission) (moment : Moment) (stage : e.pc = .deciding raw) :
      Moves upper w e input .none
        (.writing (decideSubmission upper e.run e.attempt raw (w.runs.get e.run.id) moment))
  | keeps {input : Input} {effect : Effect} {pc : Pc} (status : TerminalStatus)
      (before : e.pc.verdict = some status) (after : pc.verdict = some status)
      (payload : pc.payload = none) (landed : pc.landed = false) (plain : effect.plain = true) :
      Moves upper w e input effect pc
  | finds {input : Input} {pc : Pc}
      (cancelled : (w.runs.get e.run.id).any (·.status = .cancelled) = true)
      (after : pc.verdict = some ⟨.cancelled, rfl⟩) (payload : pc.payload = none)
      (landed : pc.landed = false) (before : e.pc.unwritten = false) : Moves upper w e input .none pc
  | yields (moment : Moment) (hex : String) (outcome : RunExecutionResult) (stage : e.pc = .flagCheck)
      (flag : w.mission.requestedRuntime = true) (cancelled : outcome.status = ⟨.cancelled, rfl⟩) :
      Moves upper w e (.next moment hex) .none (.returned outcome)

variable {upper : String → String} {w : World} {e : RunExecution} {input : Input} {effect : Effect} {pc : Pc}
variable {moment : Moment} {hex : String}

theorem moves_cancelling {point : AskPoint} {stage : CancelStage} (hstage : e.pc = .cancelling point stage)
    (h : e.proceed upper w moment hex = some (effect, pc)) : Moves upper w e (.next moment hex) effect pc := by
  simp only [proceed, hstage, Option.some.injEq, Prod.mk.injEq] at h
  obtain ⟨rfl, hpc⟩ := h
  have hnext : pc.idle = true ∧ (pc.landed = true → e.pc.landed = true) := by
    rw [← hpc, hstage]
    cases (stage.next w.mission).2 <;> cases point <;>
      exact ⟨rfl, by first | exact id | (intro hlanded; cases hlanded)⟩
  obtain ⟨hi, hl⟩ := hnext
  obtain ⟨raw, rfl, hnext⟩ | ⟨rfl, hnext⟩ | ⟨hplain, hun⟩ := stage.next_cases w.mission
  · rw [hnext]
    exact .cancels raw hi hl
  · rw [hnext] at hpc ⊢
    exact .requests hi hl (hpc ▸ rfl)
  · refine .rests hi hplain hl fun hu => ?_
    by_cases hrun : w.mission.status = .running
    · rw [hstage] at hu
      obtain ⟨after, hafter, hafteru⟩ := hun hu hrun
      exact Or.inl (by rw [← hpc, hafter]; exact hafteru)
    · exact Or.inr hrun

theorem rests_of (hidle : pc.idle = true) (hplain : effect.plain = true) (hl : pc.landed = false)
    (hu : e.pc.unwritten = false) : Moves upper w e input effect pc :=
  .rests hidle hplain (fun h => absurd (hl.symm.trans h) nofun)
    (fun h => absurd (hu.symm.trans h) nofun)

theorem moves_asking {point : AskPoint} {source : CancelSource} (hstage : e.pc = .asking point source)
    (h : e.proceed upper w moment hex = some (effect, pc)) : Moves upper w e (.next moment hex) effect pc := by
  have hto (pc : Pc) (hi : pc.idle = true) (hl : pc.landed = true → (Pc.asking point source).landed = true) :
      Moves upper w e (.next moment hex) .none pc :=
    .rests hi rfl (by rwa [hstage]) (by rw [hstage]; nofun)
  simp only [proceed, hstage] at h
  split at h
  · obtain ⟨rfl, rfl⟩ := Prod.mk.inj (Option.some.inj h)
    cases point with
    | afterAgent => exact hto _ rfl id
    | entry | afterError => exact hto _ rfl nofun
  · obtain ⟨rfl, rfl⟩ := Prod.mk.inj (Option.some.inj h)
    cases source.next? with
    | some after =>
      cases point with
      | afterAgent => exact hto _ rfl id
      | entry | afterError => exact hto _ rfl nofun
    | none =>
      cases point with
      | afterAgent => exact hto _ rfl id
      | entry | afterError => exact hto _ rfl nofun

theorem moves_confirming {outcome : RunExecutionResult} (hstage : e.pc = .confirming outcome)
    (h : e.proceed upper w moment hex = some (effect, pc)) : Moves upper w e (.next moment hex) effect pc := by
  simp only [proceed, hstage] at h
  cases hread : w.runs.get e.run.id with
  | none =>
    simp only [confirmedStatus, hread, Option.some.injEq, Prod.mk.injEq] at h
    obtain ⟨rfl, rfl⟩ := h
    exact rests_of rfl rfl rfl (by rw [hstage]; rfl)
  | some run =>
    simp only [confirmedStatus, hread, Option.some.injEq, Prod.mk.injEq] at h
    obtain ⟨rfl, rfl⟩ := h
    split
    next hc => exact .finds (by simp [hread, hc]) rfl rfl rfl (by rw [hstage]; rfl)
    · exact .keeps outcome.status (by rw [hstage]; rfl) rfl rfl rfl rfl

theorem moves_speaking {decision : Decision} (hstage : e.pc = .writing decision ∨ e.pc = .announcing decision)
    (h : e.proceed upper w moment hex = some (effect, pc)) : Moves upper w e (.next moment hex) effect pc := by
  have hto (effect : Effect) (pc : Pc) (hp : effect.plain = true)
      (hpc : pc = .announcing decision ∨ pc = .artifacts decision) :
      Moves upper w e (.next moment hex) effect pc := by
    refine .keeps decision.status ?_ ?_ ?_ ?_ hp
    · obtain hs | hs := hstage <;> rw [hs] <;> rfl
    all_goals obtain rfl | rfl := hpc <;> rfl
  obtain hs | hs := hstage
  all_goals
    simp only [proceed, hs] at h
    split at h
  all_goals
    obtain ⟨rfl, rfl⟩ := Prod.mk.inj (Option.some.inj h)
    exact hto _ _ rfl (by simp)

theorem moves_proceed (h : e.proceed upper w moment hex = some (effect, pc)) :
    Moves upper w e (.next moment hex) effect pc := by
  have hrest (hu : e.pc.unwritten = false) (hidle : pc.idle = true) (hplain : effect.plain = true)
      (hl : pc.landed = false) : Moves upper w e (.next moment hex) effect pc :=
    rests_of hidle hplain hl hu
  cases hstage : e.pc with
  | cancelling point stage => exact moves_cancelling hstage h
  | asking point source => exact moves_asking hstage h
  | confirming outcome => exact moves_confirming hstage h
  | writing decision => exact moves_speaking (Or.inl hstage) h
  | announcing decision => exact moves_speaking (Or.inr hstage) h
  | agent | failing | finished =>
    simp only [proceed, hstage] at h
    cases h
  | entered =>
    simp only [proceed, hstage] at h
    split at h
    · obtain ⟨rfl, rfl⟩ := Prod.mk.inj (Option.some.inj h)
      exact hrest (by rw [hstage]; rfl) rfl rfl rfl
    split at h
    all_goals obtain ⟨rfl, rfl⟩ := Prod.mk.inj (Option.some.inj h)
    next hc => exact .finds hc rfl rfl rfl (by rw [hstage]; rfl)
    next => exact hrest (by rw [hstage]; rfl) rfl rfl rfl
  | notStarted =>
    simp only [proceed, hstage] at h
    split at h
    all_goals obtain ⟨rfl, rfl⟩ := Prod.mk.inj (Option.some.inj h)
    next hc => exact .finds hc rfl rfl rfl (by rw [hstage]; rfl)
    next => exact hrest (by rw [hstage]; rfl) rfl rfl rfl
  | flagCheck =>
    simp only [proceed, hstage] at h
    split at h
    all_goals obtain ⟨rfl, rfl⟩ := Prod.mk.inj (Option.some.inj h)
    next hflag => exact .yields moment hex _ hstage hflag rfl
    next => exact hrest (by rw [hstage]; rfl) rfl rfl rfl
  | starting =>
    simp only [proceed, hstage] at h
    obtain ⟨rfl, rfl⟩ := Prod.mk.inj (Option.some.inj h)
    refine hrest (by rw [hstage]; rfl) ?_ rfl ?_ <;> split <;> rfl
  | started =>
    simp only [proceed, hstage] at h
    obtain ⟨rfl, rfl⟩ := Prod.mk.inj (Option.some.inj h)
    exact hrest (by rw [hstage]; rfl) rfl rfl rfl
  | discarding point =>
    simp only [proceed, hstage] at h
    split at h
    all_goals obtain ⟨rfl, rfl⟩ := Prod.mk.inj (Option.some.inj h)
    next => exact hrest (by rw [hstage]; rfl) rfl rfl rfl
    next =>
      refine .rests rfl rfl ?_ (fun _ => Or.inl rfl)
      rw [hstage]
      cases point with
      | afterAgent => exact id
      | entry | afterError => exact nofun
  | marking =>
    simp only [proceed, hstage] at h
    split at h
    all_goals obtain ⟨rfl, rfl⟩ := Prod.mk.inj (Option.some.inj h)
    next => exact .marks hstage
    next => exact hrest (by rw [hstage]; rfl) rfl rfl rfl
  | markGet raw =>
    simp only [proceed, hstage] at h
    split at h
    all_goals obtain ⟨rfl, rfl⟩ := Prod.mk.inj (Option.some.inj h)
    next => exact .gets raw hstage
    next => exact hrest (by rw [hstage]; rfl) rfl rfl rfl
  | markPut raw result =>
    simp only [proceed, hstage] at h
    obtain ⟨rfl, rfl⟩ := Prod.mk.inj (Option.some.inj h)
    exact .puts raw result hstage
  | dropping error =>
    simp only [proceed, hstage] at h
    obtain ⟨rfl, rfl⟩ := Prod.mk.inj (Option.some.inj h)
    exact .drops error hstage
  | clearing backend =>
    cases backend with
    | default | runtime =>
      simp only [proceed, hstage] at h
      obtain ⟨rfl, rfl⟩ := Prod.mk.inj (Option.some.inj h)
      exact hrest (by rw [hstage]; rfl) rfl rfl rfl
  | collecting =>
    simp only [proceed, hstage] at h
    split at h
    all_goals obtain ⟨rfl, rfl⟩ := Prod.mk.inj (Option.some.inj h)
    next => exact .collects moment hex hstage (Or.inl rfl)
    next => exact .collects moment hex hstage (Or.inr rfl)
  | rebundleGet raw =>
    simp only [proceed, hstage] at h
    obtain ⟨rfl, rfl⟩ := Prod.mk.inj (Option.some.inj h)
    exact .rebundles raw hstage
  | rebundlePut raw result =>
    simp only [proceed, hstage] at h
    obtain ⟨rfl, rfl⟩ := Prod.mk.inj (Option.some.inj h)
    exact .repeats raw result hstage
  | ingesting raw =>
    simp only [proceed, hstage] at h
    obtain ⟨rfl, rfl⟩ := Prod.mk.inj (Option.some.inj h)
    exact .ingests raw hstage
  | deciding raw =>
    simp only [proceed, hstage] at h
    obtain ⟨rfl, rfl⟩ := Prod.mk.inj (Option.some.inj h)
    exact .decides raw moment hstage
  | artifacts decision =>
    simp only [proceed, hstage] at h
    obtain ⟨rfl, rfl⟩ := Prod.mk.inj (Option.some.inj h)
    exact .keeps decision.status (by rw [hstage]; rfl) rfl rfl rfl rfl
  | returned outcome =>
    simp only [proceed, hstage] at h
    split at h
    all_goals obtain ⟨rfl, rfl⟩ := Prod.mk.inj (Option.some.inj h)
    next => exact hrest (by rw [hstage]; rfl) rfl rfl rfl
    next => exact .keeps outcome.status (by rw [hstage]; rfl) rfl rfl rfl rfl
  | finalizing outcome status =>
    simp only [proceed, hstage] at h
    obtain ⟨rfl, rfl⟩ := Prod.mk.inj (Option.some.inj h)
    refine hrest (by rw [hstage]; rfl) ?_ rfl ?_ <;> split <;> rfl

theorem moves (h : e.next upper w input = some (effect, pc)) : Moves upper w e input effect pc := by
  have hquit (pc : Pc) (hu : e.pc.unwritten = false) (hidle : pc.idle = true) (hl : pc.landed = false) :
      Moves upper w e input .none pc := rests_of hidle rfl hl hu
  cases input with
  | next moment hex => exact moves_proceed h
  | emits event =>
    simp only [next, Option.ite_none_right_eq_some, Option.some.injEq, Prod.mk.injEq] at h
    obtain ⟨-, rfl, rfl⟩ := h
    exact .stays _
  | returns result =>
    simp only [next] at h
    split at h
    next hstage =>
      obtain ⟨rfl, rfl⟩ := Prod.mk.inj (Option.some.inj h)
      exact .answers result hstage
    · cases h
  | raises error =>
    simp only [next] at h
    split at h
    next hstage =>
      obtain ⟨rfl, rfl⟩ := Prod.mk.inj (Option.some.inj h)
      exact hquit _ (by rw [hstage]; rfl) rfl rfl
    · cases h
  | fails message =>
    simp only [next, Option.ite_none_right_eq_some, Option.some.injEq, Prod.mk.injEq] at h
    obtain ⟨hfallible, rfl, rfl⟩ := h
    refine hquit _ ?_ rfl rfl
    cases hstage : e.pc with
    | cancelling => simp [hstage, Pc.fallible] at hfallible
    | _ => rfl
  | beats lease moment =>
    simp only [next] at h
    split at h
    · obtain ⟨rfl, rfl⟩ := Prod.mk.inj (Option.some.inj h)
      exact .stays _
    · simp only [Option.ite_none_right_eq_some, Option.some.injEq, Prod.mk.injEq] at h
      obtain ⟨hawaited, rfl, rfl⟩ := h
      refine hquit _ ?_ rfl rfl
      cases hstage : e.pc with
      | cancelling => simp [hstage, Pc.awaited] at hawaited
      | _ => rfl
  | settles service moment draw =>
    simp only [next] at h
    split at h
    next hstage =>
      obtain ⟨rfl, rfl⟩ := Prod.mk.inj (Option.some.inj h)
      exact rests_of rfl rfl rfl (by rw [hstage]; rfl)
    · cases h
  | stops =>
    simp only [next, Option.ite_none_right_eq_some, Option.some.injEq, Prod.mk.injEq] at h
    obtain ⟨hstoppable, rfl, rfl⟩ := h
    refine hquit _ ?_ rfl rfl
    cases hstage : e.pc with
    | cancelling => simp [hstage, Pc.stoppable] at hstoppable
    | _ => rfl

theorem idle_iff : pc.idle = true ↔ pc.payload = none ∧ pc.read = none ∧ pc.verdict = none := by
  simp [Pc.idle, and_assoc]

theorem collected_of_payload (h : pc.payload = none) : pc.collected = none := by
  cases pc <;> first | rfl | cases h

theorem payload_of_collected {raw : RawMission} (h : pc.collected = some raw) : pc.payload = some raw := by
  cases pc <;> first | exact h | cases h

theorem collected_of_verdict {status : TerminalStatus} (h : pc.verdict = some status) :
    pc.collected = none ∧ pc.read = none := by
  cases pc <;> first | exact ⟨rfl, rfl⟩ | cases h

theorem Moves.payload (h : Moves upper w e input effect pc) {raw : RawMission}
    (hraw : pc.payload = some raw) : e.pc.payload = some raw ∨ raw = w.mission.raw ∧ effect = .none ∧
      (e.pc.landed = true ∨ e.pc = .collecting ∧ ∃ moment hex, input = .next moment hex) := by
  cases h with
  | stays => exact Or.inl hraw
  | rests idle => cases (idle_iff.mp idle).1.symm.trans hraw
  | requests idle => cases (idle_iff.mp idle).1.symm.trans hraw
  | cancels raw idle => cases (idle_iff.mp idle).1.symm.trans hraw
  | answers | drops | puts | yields => cases hraw
  | marks stage => exact Or.inr ⟨(Option.some.inj hraw).symm, rfl, Or.inl (by rw [stage]; rfl)⟩
  | collects moment hex stage after =>
    refine Or.inr ⟨?_, rfl, Or.inr ⟨stage, moment, hex, rfl⟩⟩
    obtain rfl | rfl := after <;> exact (Option.some.inj hraw).symm
  | gets raw stage | rebundles raw stage | repeats raw result stage | ingests raw stage
  | decides raw moment stage =>
    rw [stage]
    exact Or.inl hraw
  | keeps status before after payload => cases payload.symm.trans hraw
  | finds cancelled after payload => cases payload.symm.trans hraw

theorem Moves.read (h : Moves upper w e input effect pc) {result : MissionResult}
    (hread : pc.read = some result) :
    e.pc.read = some result ∨ result = w.mission.result ∧ effect = .none := by
  cases h with
  | stays => exact Or.inl hread
  | rests idle => cases (idle_iff.mp idle).2.1.symm.trans hread
  | requests idle => cases (idle_iff.mp idle).2.1.symm.trans hread
  | cancels raw idle => cases (idle_iff.mp idle).2.1.symm.trans hread
  | gets | rebundles => exact Or.inr ⟨(Option.some.inj hread).symm, rfl⟩
  | collects moment hex stage after => obtain rfl | rfl := after <;> cases hread
  | keeps status before after => cases (collected_of_verdict after).2.symm.trans hread
  | finds cancelled after => cases (collected_of_verdict after).2.symm.trans hread
  | _ => cases hread

theorem Moves.landed (h : Moves upper w e input effect pc) (hl : pc.landed = true) :
    e.pc.landed = true ∨ ∃ result : AgentResult, effect = .mission (.put result.lookup result.payload) := by
  cases h with
  | stays => exact Or.inl hl
  | rests idle plain landed => exact Or.inl (landed hl)
  | requests idle landed => exact Or.inl (landed hl)
  | cancels raw idle landed => exact Or.inl (landed hl)
  | answers result => exact Or.inr ⟨result, rfl⟩
  | collects moment hex stage after => obtain rfl | rfl := after <;> cases hl
  | keeps status before after payload landed => cases landed.symm.trans hl
  | finds cancelled after payload landed => cases landed.symm.trans hl
  | _ => cases hl

theorem Moves.collected (h : Moves upper w e input effect pc) {raw : RawMission}
    (hraw : pc.collected = some raw) :
    e.pc.collected = some raw ∨ raw = w.mission.raw ∧ effect = .none := by
  cases h with
  | stays => exact Or.inl hraw
  | rests idle => cases (collected_of_payload (idle_iff.mp idle).1).symm.trans hraw
  | requests idle => cases (collected_of_payload (idle_iff.mp idle).1).symm.trans hraw
  | cancels raw idle => cases (collected_of_payload (idle_iff.mp idle).1).symm.trans hraw
  | collects moment hex stage after =>
    obtain rfl | rfl := after <;> exact Or.inr ⟨(Option.some.inj hraw).symm, rfl⟩
  | rebundles raw stage | repeats raw result stage | ingests raw stage =>
    rw [stage]
    exact Or.inl hraw
  | keeps status before after payload => cases (collected_of_payload payload).symm.trans hraw
  | finds cancelled after payload => cases (collected_of_payload payload).symm.trans hraw
  | _ => cases hraw

/-- A verdict was there before, comes from the payload, or is a cancellation. -/
theorem Moves.verdict (h : Moves upper w e input effect pc) {status : TerminalStatus}
    (hv : pc.verdict = some status) : e.pc.verdict = some status ∨
      (∃ raw, e.pc.collected = some raw ∧ effect = .none ∧
        status = raw.finalStatus (w.runs.get e.run.id)) ∨
      (w.runs.get e.run.id).any (·.status = .cancelled) = true ∨
      status = ⟨.cancelled, rfl⟩ ∧ e.pc = .flagCheck ∧ w.mission.requestedRuntime = true ∧
        effect = .none ∧ ∃ moment hex, input = .next moment hex := by
  cases h with
  | stays => exact Or.inl hv
  | rests idle => cases (idle_iff.mp idle).2.2.symm.trans hv
  | requests idle => cases (idle_iff.mp idle).2.2.symm.trans hv
  | cancels raw idle => cases (idle_iff.mp idle).2.2.symm.trans hv
  | collects moment hex stage after => obtain rfl | rfl := after <;> cases hv
  | decides raw moment stage =>
    exact Or.inr (Or.inl ⟨raw, by rw [stage]; rfl, rfl, (Option.some.inj hv).symm⟩)
  | keeps kept before after => exact Or.inl (before.trans (after.symm.trans hv))
  | finds cancelled => exact Or.inr (Or.inr (Or.inl cancelled))
  | yields moment hex outcome stage flag cancelled =>
    refine Or.inr (Or.inr (Or.inr ⟨?_, stage, flag, rfl, moment, hex, rfl⟩))
    exact (Option.some.inj hv).symm.trans cancelled
  | _ => cases hv

theorem Moves.unwritten (h : Moves upper w e input effect pc) (hu : e.pc.unwritten = true) :
    pc.unwritten = true ∨ w.mission.status ≠ .running ∨ ∃ raw,
      effect = .mission (.put CancelStage.cancelledResult (CancelStage.cancelledPayload raw)) := by
  cases h with
  | stays => exact Or.inl hu
  | rests idle plain landed unwritten =>
    obtain hp | hr := unwritten hu
    · exact Or.inl hp
    · exact Or.inr (Or.inl hr)
  | requests idle landed unwritten => exact Or.inl unwritten
  | cancels raw => exact Or.inr (Or.inr ⟨raw, rfl⟩)
  | keeps status before =>
    cases hstage : e.pc with
    | cancelling => simp [hstage, Pc.verdict] at before
    | _ => simp [hstage, Pc.unwritten] at hu
  | finds cancelled after payload landed before => cases before.symm.trans hu
  | answers result stage | drops error stage | marks stage | gets raw stage | puts raw result stage
  | collects moment hex stage | rebundles raw stage | repeats raw result stage | ingests raw stage
  | decides raw moment stage | yields moment hex outcome stage =>
    rw [stage] at hu
    cases hu

theorem Moves.writing (h : Moves upper w e input effect pc) {decision : Decision}
    (hpc : pc = .writing decision) :
    e.pc = .writing decision ∨ ∃ persisted, decision.status = decision.raw.finalStatus persisted := by
  cases h with
  | stays => exact Or.inl hpc
  | rests idle => rw [hpc] at idle; cases idle
  | requests idle => rw [hpc] at idle; cases idle
  | cancels raw idle => rw [hpc] at idle; cases idle
  | collects moment hex stage after => obtain rfl | rfl := after <;> cases hpc
  | keeps status before after payload => rw [hpc] at payload; cases payload
  | finds cancelled after payload => rw [hpc] at payload; cases payload
  | decides raw moment =>
    obtain rfl := Pc.writing.inj hpc
    exact Or.inr ⟨_, rfl⟩
  | _ => cases hpc

end RunExecution

def CallPc.unwritten : CallPc → Bool
  | .placeholder | .rewriting | .requesting => true
  | .cancelling stage => stage.unwritten
  | .done => false

theorem Call.next_cases {w : World} {c : Call} {effect : Effect} {pc : CallPc}
    (h : c.next w = some (effect, pc)) :
    (∃ raw, effect =
      .mission (.put CancelStage.cancelledResult (CancelStage.cancelledPayload raw))) ∨
    (effect = .mission (.flag .runtime true) ∧ pc.unwritten = true) ∨
    effect.plain = true ∧
      (c.pc.unwritten = true → w.mission.status = .running → pc.unwritten = true) := by
  cases hstage : c.pc with
  | placeholder =>
    simp only [next, hstage, Option.some.injEq, Prod.mk.injEq] at h
    obtain ⟨rfl, rfl⟩ := h
    exact Or.inr (Or.inr ⟨rfl, fun _ _ => by split <;> rfl⟩)
  | rewriting =>
    simp only [next, hstage, Option.some.injEq, Prod.mk.injEq] at h
    obtain ⟨rfl, rfl⟩ := h
    exact Or.inr (Or.inr ⟨rfl, fun _ _ => rfl⟩)
  | requesting =>
    simp only [next, hstage, Option.some.injEq, Prod.mk.injEq] at h
    obtain ⟨rfl, rfl⟩ := h
    exact Or.inr (Or.inl ⟨rfl, rfl⟩)
  | cancelling stage =>
    simp only [next, hstage, Option.some.injEq, Prod.mk.injEq] at h
    obtain ⟨rfl, rfl⟩ := h
    obtain ⟨raw, -, hnext⟩ | ⟨-, hnext⟩ | ⟨hplain, hun⟩ := stage.next_cases w.mission
    · exact Or.inl ⟨raw, by rw [hnext]; rfl⟩
    · exact Or.inr (Or.inl (by rw [hnext]; exact ⟨rfl, rfl⟩))
    · refine Or.inr (Or.inr ⟨hplain, fun hu hrun => ?_⟩)
      obtain ⟨after, hafter, hafteru⟩ := hun hu hrun
      rw [hafter]
      exact hafteru
  | done => simp [next, hstage] at h

end SelericSwarm
