import SelericSwarm.MissionSteps

/-! A run and its mission are two stores with two cancellation paths. When they
end the same way. -/
open Option

namespace SelericSwarm
open Keyed RunRepository

/-- The job has returned: the mission has been read, or the outcome is settled. -/
def Pc.past (pc : Pc) : Bool := pc.collected.isSome || pc.verdict.isSome

def Pc.over : Pc → Bool
  | .finished => true
  | _ => false

def CallPc.over : CallPc → Bool
  | .done => true
  | _ => false

def Effect.overwrites (m : MissionState) : Effect → Bool
  | .mission op => m.overwrittenBy op
  | _ => false

namespace MissionState

/-- The payload is or was the mission's. -/
def Showed (m : MissionState) (raw : RawMission) : Prop :=
  ∃ status, raw.status = some status ∧ status.runStatus?.isSome ∧ status.later m.status = true ∧
    (status = .cancelled → raw.finalResponse = none)

theorem Showed.mono {m m' : MissionState} {raw : RawMission} (h : m.Showed raw)
    (hl : m.status.later m'.status = true) : m'.Showed raw := by
  obtain ⟨status, hst, hknown, hlater, hsilent⟩ := h
  exact ⟨status, hst, hknown, MissionStatus.later_trans hlater hl, hsilent⟩

theorem Stated.showed {m : MissionState} (h : m.Stated) (hr : m.status ≠ .running) : m.Showed m.raw :=
  ⟨m.status, h.payload, h.known.resolve_left hr, m.status.later_refl, h.silent⟩

theorem cancelled_fits (m : MissionState) (raw : RawMission) :
    m.Fits CancelStage.cancelledResult (CancelStage.cancelledPayload raw) .cancelled where
  payload := rfl
  known := rfl
  cancelled := Or.inr (by simp [CancelStage.cancelledResult])
  silent _ := rfl

theorem answer_fits (m : MissionState) (result : AgentResult) :
    ∃ status, m.Fits result.lookup result.payload status := by
  obtain ⟨status, finalResponse, errorCode, evidence⟩ := result
  cases status with
  | running => exact ⟨.partialResult, rfl, rfl, Or.inr (by simp [AgentResult.lookup]), nofun⟩
  | completed => exact ⟨.completed, rfl, rfl, Or.inr (by simp [AgentResult.lookup]), nofun⟩
  | partialResult => exact ⟨.partialResult, rfl, rfl, Or.inr (by simp [AgentResult.lookup]), nofun⟩
  | failed => exact ⟨.failed, rfl, rfl, Or.inr (by simp [AgentResult.lookup]), nofun⟩

theorem put_ne_running {m : MissionState} {result : MissionResult} {raw : RawMission}
    {status : MissionStatus} (hm : m.Stated) (h : Fits m result raw status) :
    (m.put result raw).status ≠ .running := by
  by_cases hr : m.status = .running
  · have hresult : m.result.status ≠ .cancelled := fun hc => by cases hr.symm.trans (hm.result hc)
    have hraw := hm.payload
    have hknown := h.known
    rw [hr] at hraw
    simp only [put, hraw, hresult, hr, ne_eq, not_true_eq_false, and_false, false_and, if_false,
      Option.some.injEq, reduceCtorEq]
    intro hrun
    simp only [MissionState.status, h.payload, getD_some] at hrun
    rw [hrun] at hknown
    cases hknown
  · exact MissionStatus.ne_running_of_later (put_later hm h) hr

@[simp] theorem put_requestedRuntime (m : MissionState) (result : MissionResult) (raw : RawMission) :
    (m.put result raw).requestedRuntime = m.requestedRuntime := by
  unfold put
  repeat' split
  all_goals rfl

end MissionState

theorem MissionStatus.not_concluded_of_cancelled {status : MissionStatus}
    (h : status.runStatus? = some .cancelled) : status.concluded = false := by
  cases status <;> first | rfl | cases h

theorem Decision.completed_of_answer {decision : Decision} (h : decision.transcript = .answer) :
    decision.status.1 = .completed := by
  unfold transcript at h
  split at h
  next hc => exact hc.2
  · split at h <;> cases h

theorem warningPart_cancelled {raw : RawMission} {status : TerminalStatus}
    (hr : raw.finalResponse = none) (hs : status.1 = .cancelled) : warningPart raw status = cancelledPart := by
  have hblank : isBlank raw.response = true := by rw [RawMission.response, hr]; rfl
  simp [warningPart, cancelledPart, hblank, hs, RunStatus.lower]

namespace World
variable {upper : String → String} {w w' : World} {action : Action}

/-- No step of a worker or of an endpoint is pending. -/
def quiet (w : World) : Bool := w.execs.rows.all (·.pc.over) && w.calls.rows.all (·.pc.over)

/-- No outcome of the run rests on the mission's status yet. -/
def unread (w : World) : Bool := !w.ended && w.execs.rows.all fun e => !w.holds e.claim || !e.pc.past

/-- A run is failed with its last attempt only over a failed mission, and
cancelled only before the mission concludes; a mission job returns only when the
mission has stopped running, an attempt gives way to a requested cancellation only
before the mission concludes, and once the current attempt has read the mission,
or the run has ended, no execution overwrites its status. -/
def missionFenced (upper : String → String) (w : World) (action : Action) : Bool :=
  (w.failing action).all (fun f => !w.runs.failsLast f.1 f.2 || w.mission.status = .failed) &&
    match action with
    | .cancelRun .. => w.ended || !w.mission.status.concluded
    | .execute key input => (w.execs.get? key).all fun e =>
        (e.next upper w input).all (fun m => !m.1.overwrites w.mission || w.unread) &&
          match input, e.pc with
          | .next .., .collecting => w.mission.status ≠ .running
          | .next .., .flagCheck =>
            !w.holds key || !w.mission.requestedRuntime || !w.mission.status.concluded
          | _, _ => true
    | _ => true

/-- A cancel call or an execution is about to cancel the running mission. -/
def CancelPending (w : World) : Prop :=
  (∃ c ∈ w.calls.rows, c.pc.unwritten = true) ∨ ∃ e ∈ w.execs.rows, e.pc.unwritten = true

/-- The mission corresponds to a run of the status, or is about to. -/
def EndsAs (w : World) (status : RunStatus) : Prop :=
  w.mission.status.runStatus? = some status ∨
    status = .cancelled ∧ w.mission.status = .running ∧ w.CancelPending

theorem not_pending_of_quiet (h : w.quiet = true) : ¬ w.CancelPending := by
  simp only [quiet, Bool.and_eq_true, List.all_eq_true] at h
  rintro (⟨c, hc, hu⟩ | ⟨e, he, hu⟩)
  · have hover := h.2 c hc
    cases hpc : c.pc <;> simp [hpc, CallPc.over, CallPc.unwritten] at hover hu
  · have hover := h.1 e he
    cases hpc : e.pc <;> simp [hpc, Pc.over, Pc.unwritten] at hover hu

structure Agreeing (w : World) : Prop extends Sound w where
  stated : w.mission.Stated
  pending : w.mission.requestedRuntime = true → w.mission.status = .running → w.CancelPending
  landed : ∀ e ∈ w.execs.rows, e.pc.landed = true → w.mission.status ≠ .running
  carried : ∀ e ∈ w.execs.rows, ∀ raw, e.pc.payload = some raw → w.mission.Showed raw
  read : ∀ e ∈ w.execs.rows, ∀ result, e.pc.read = some result → result.status = .cancelled →
    w.mission.status = .cancelled
  decided : ∀ e ∈ w.execs.rows, ∀ decision, e.pc = .writing decision →
    ∃ persisted, decision.status = decision.raw.finalStatus persisted
  collected : ∀ e ∈ w.execs.rows, w.holds e.claim = true → ∀ raw, e.pc.collected = some raw →
    raw.status = some w.mission.status
  verdict : ∀ e ∈ w.execs.rows, w.holds e.claim = true → ∀ status, e.pc.verdict = some status →
    w.EndsAs status.1
  ends : ∀ run, w.runs.get w.runId = some run → run.status.terminal = true → w.EndsAs run.status
  spoken : w.reply = [pendingPart] ∨ w.reply = [cancelledPart] ∨ w.mission.status.concluded = true

/-- What a step does to the mission: nothing but flags, or a put; only a step that
calls no repository method does either. -/
inductive MissionStep (upper : String → String) (w : World) (action : Action) (w' : World) : Prop where
  | kept (same : w'.mission = w.mission)
  | flagged (runs : w'.runs = w.runs) (status : w'.mission.status = w.mission.status)
      (raw : w'.mission.raw = w.mission.raw) (result : w'.mission.result = w.mission.result)
      (requested : w'.mission.requestedRuntime = true →
        w.mission.requestedRuntime = true ∨ w'.CancelPending)
  | cancelled (runs : w'.runs = w.runs) (raw : RawMission)
      (put : w'.mission =
        w.mission.put CancelStage.cancelledResult (CancelStage.cancelledPayload raw))
  | put (runs : w'.runs = w.runs) (input : Input) (e : RunExecution) (result : MissionResult)
      (raw : RawMission) (pc : Pc) (asked : action = .execute e.claim input) (mem : e ∈ w.execs.rows)
      (next : e.next upper w input = some (.mission (.put result raw), pc))
      (put : w'.mission = w.mission.put result raw)

theorem perform_plain (author : Author) {effect : Effect} (h : effect.plain = true) :
    (w.perform author effect).mission = w.mission ∨ (w.perform author effect).runs = w.runs ∧
      (w.perform author effect).mission.raw = w.mission.raw ∧
      (w.perform author effect).mission.result = w.mission.result ∧
      ((w.perform author effect).mission.requestedRuntime = true → w.mission.requestedRuntime = true) := by
  cases effect with
  | mission op =>
    cases op with
    | put => cases h
    | flag backend requested =>
      refine Or.inr ⟨rfl, ?_⟩
      cases backend with
      | default => exact ⟨rfl, rfl, id⟩
      | runtime =>
        cases requested with
        | true => cases h
        | false => exact ⟨rfl, rfl, nofun⟩
  | _ => exact Or.inl rfl

theorem Stepped.mission (h : Stepped upper w action w') : MissionStep upper w action w' := by
  cases h with
  | executed input e effect pc mem next =>
    have hflagged (hm : effect = .mission (.flag .runtime true) ∧ pc.unwritten = true ∨
        effect.plain = true) :
        MissionStep upper w (.execute e.claim input) { w.perform (.attempt e.claim) effect with
          execs := w.execs.put { e with pc := pc, wrote := e.wrote || effect.writes } } := by
      obtain ⟨rfl, hu⟩ | hplain := hm
      · exact .flagged rfl rfl rfl rfl fun _ => Or.inr (Or.inr ⟨_, Table.mem_put_self _ _, hu⟩)
      · obtain hsame | ⟨hruns, hraw, hresult, hflag⟩ := w.perform_plain (.attempt e.claim) hplain
        · exact .kept hsame
        · exact .flagged hruns (by simp only [MissionState.status, hraw, hresult]) hraw hresult
            fun hr => Or.inl (hflag hr)
    cases effect with
    | mission op =>
      cases op with
      | put result raw => exact .put rfl input e result raw pc rfl mem next rfl
      | flag backend requested =>
        refine hflagged ?_
        cases RunExecution.moves next with
        | rests idle plain => exact Or.inr plain
        | requests idle landed unwritten => exact Or.inl ⟨rfl, unwritten⟩
        | keeps status before after payload landed plain => exact Or.inr plain
    | _ => exact .kept rfl
  | proceeded c effect pc mem next =>
    obtain ⟨raw, rfl⟩ | ⟨rfl, hu⟩ | ⟨hplain, -⟩ := Call.next_cases next
    · exact .cancelled rfl raw rfl
    · exact .flagged rfl rfl rfl rfl fun _ => Or.inr (Or.inl ⟨_, Table.mem_put_self _ _, hu⟩)
    · obtain hsame | ⟨hruns, hraw, hresult, hflag⟩ := w.perform_plain (.call c.id) hplain
      · exact .kept hsame
      · exact .flagged hruns (by simp only [MissionState.status, hraw, hresult]) hraw hresult
          fun hr => Or.inl (hflag hr)
  | _ => exact .kept rfl

theorem Agreeing.fits (hs : Agreeing w) {e : RunExecution} {input : Input} {result : MissionResult}
    {raw : RawMission} {pc : Pc} (he : e ∈ w.execs.rows)
    (h : e.next upper w input = some (.mission (.put result raw), pc)) :
    ∃ status, w.mission.Fits result raw status := by
  have hcarried (raw₀ : RawMission) (hpc : e.pc.payload = some raw₀) (hread : e.pc.read = some result)
      (hst : raw.status = raw₀.status) (hfinal : raw.finalResponse = raw₀.finalResponse) :
      ∃ status, w.mission.Fits result raw status := by
    obtain ⟨status, hst₀, hknown, hlater, hsilent⟩ := hs.carried e he raw₀ hpc
    refine ⟨status, hst.trans hst₀, hknown, ?_, fun hc => hfinal.trans (hsilent hc)⟩
    by_cases hc : w.mission.status = .cancelled
    · exact Or.inl hc
    · refine Or.inr ⟨fun hr => absurd (hs.read e he result hread hr) hc, ?_⟩
      rintro rfl
      exact absurd (MissionStatus.eq_cancelled_of_later hlater) hc
  cases RunExecution.moves h with
  | rests idle plain => cases plain
  | keeps status before after payload landed plain => cases plain
  | cancels raw => exact ⟨.cancelled, w.mission.cancelled_fits raw⟩
  | answers result => exact w.mission.answer_fits result
  | drops error => exact ⟨.failed, rfl, rfl, Or.inr (by simp [AgentError.failedResult]), nofun⟩
  | puts raw₀ result stage => exact hcarried raw₀ (by rw [stage]; rfl) (by rw [stage]; rfl) rfl rfl
  | repeats _ _ stage => exact hcarried raw (by rw [stage]; rfl) (by rw [stage]; rfl) rfl rfl

theorem MissionStep.stated (hs : Agreeing w) (h : MissionStep upper w action w') : w'.mission.Stated := by
  cases h with
  | kept same => exact same ▸ hs.stated
  | flagged runs status raw result requested =>
    exact { payload := by rw [raw, status]; exact hs.stated.payload
            known := by rw [status]; exact hs.stated.known
            result := by rw [result, status]; exact hs.stated.result
            silent := by rw [raw, status]; exact hs.stated.silent }
  | cancelled runs raw put => exact put ▸ MissionState.put_stated hs.stated (w.mission.cancelled_fits raw)
  | put runs input e result raw pc asked mem next put =>
    obtain ⟨status, hfits⟩ := hs.fits mem next
    exact put ▸ MissionState.put_stated hs.stated hfits

theorem MissionStep.later (hs : Agreeing w) (h : MissionStep upper w action w') :
    w.mission.status.later w'.mission.status = true := by
  cases h with
  | kept same => simp [same]
  | flagged runs status => simp [status]
  | cancelled runs raw put => exact put ▸ MissionState.put_later hs.stated (w.mission.cancelled_fits raw)
  | put runs input e result raw pc asked mem next put =>
    obtain ⟨status, hfits⟩ := hs.fits mem next
    exact put ▸ MissionState.put_later hs.stated hfits

theorem MissionStep.status (hs : Agreeing w) (hok : missionFenced upper w action = true)
    (h : MissionStep upper w action w') (hread : w.unread = false) :
    w'.mission.status = w.mission.status ∨
      w.mission.status = .running ∧ w'.mission.status = .cancelled := by
  cases h with
  | kept same => exact Or.inl (by rw [same])
  | flagged runs status => exact Or.inl status
  | cancelled runs raw put =>
    exact put ▸ MissionState.put_kept hs.stated (w.mission.cancelled_fits raw)
      (by simp [MissionState.overwrittenBy, CancelStage.cancelledResult])
  | put runs input e result raw pc asked mem next put =>
    obtain ⟨status, hfits⟩ := hs.fits mem next
    subst asked
    have hkeep := (Bool.and_eq_true_iff.mp hok).2
    simp only [Table.get?_of_mem mem, all_some, next, hread, Bool.or_false, Bool.and_eq_true,
      Effect.overwrites, Bool.not_eq_true'] at hkeep
    exact put ▸ MissionState.put_kept hs.stated hfits hkeep.1

theorem Agreeing.pending_step (hs : Agreeing w) (h : Stepped upper w action w') (hp : w.CancelPending)
    (hrun : w'.mission.status = .running) : w'.CancelPending := by
  have hbefore : w.mission.status = .running := by
    by_contra hne
    exact MissionStatus.ne_running_of_later (h.mission.later hs) hne hrun
  obtain ⟨c, hc, hu⟩ | ⟨e, he, hu⟩ := hp
  · obtain hkeep | ⟨effect, pc, hnext, rfl⟩ := h.call_moves hc
    · exact Or.inl ⟨c, hkeep, hu⟩
    obtain ⟨raw, rfl⟩ | ⟨-, hu'⟩ | ⟨-, hu'⟩ := Call.next_cases hnext
    · exact absurd hrun (MissionState.put_ne_running hs.stated (w.mission.cancelled_fits raw))
    · exact Or.inl ⟨_, Table.mem_put_self _ _, hu'⟩
    · exact Or.inl ⟨_, Table.mem_put_self _ _, hu' hu hbefore⟩
  · obtain hkeep | ⟨input, effect, pc, hnext, rfl⟩ := h.exec_moves hs.toSound he
    · exact Or.inr ⟨e, hkeep, hu⟩
    obtain hu' | hne | ⟨raw, rfl⟩ := (RunExecution.moves hnext).unwritten hu
    · exact Or.inr ⟨_, Table.mem_put_self _ _, hu'⟩
    · exact absurd hbefore hne
    · exact absurd hrun (MissionState.put_ne_running hs.stated (w.mission.cancelled_fits raw))

theorem Agreeing.endsAs_of_kept (hs : Agreeing w) (h : Stepped upper w action w')
    (hsame : w'.mission.status = w.mission.status) {status : RunStatus} (he : w.EndsAs status) :
    w'.EndsAs status := by
  obtain hst | ⟨hst, hrun, hp⟩ := he
  · exact Or.inl (hsame ▸ hst)
  · exact Or.inr ⟨hst, hsame.trans hrun, hs.pending_step h hp (hsame.trans hrun)⟩

theorem Agreeing.endsAs_step (hs : Agreeing w) (hok : missionFenced upper w action = true)
    (h : Stepped upper w action w') (hread : w.unread = false) {status : RunStatus}
    (he : w.EndsAs status) : w'.EndsAs status := by
  obtain hsame | ⟨hrun, hc⟩ := h.mission.status hs hok hread
  · exact hs.endsAs_of_kept h hsame he
  · obtain hst | ⟨rfl, -, -⟩ := he
    · rw [hrun] at hst
      cases hst
    · exact Or.inl (by rw [hc]; rfl)

theorem endsAs_cancelled (hopen : w.mission.status.concluded = false)
    (hp : w.mission.status = .running → w.CancelPending) : w.EndsAs .cancelled := by
  by_cases hrun : w.mission.status = .running
  · exact Or.inr ⟨rfl, hrun, hp hrun⟩
  · have hc : w.mission.status = .cancelled := by simpa [MissionStatus.concluded, hrun] using hopen
    exact Or.inl (by rw [hc]; rfl)

theorem read_of_ended (h : w.ended = true) : w.unread = false := by simp [unread, h]

theorem read_of_past {e : RunExecution} (he : e ∈ w.execs.rows) (hh : w.holds e.claim = true)
    (hp : e.pc.past = true) : w.unread = false := by
  simp only [unread, Bool.and_eq_false_iff, List.all_eq_false]
  exact Or.inr ⟨e, he, by simp [hh, hp]⟩

namespace Agreeing

section
variable (hs : Agreeing w)
include hs

theorem pending_kept (h : Stepped upper w action w') (hflag : w'.mission.requestedRuntime = true)
    (hrun : w'.mission.status = .running) : w'.CancelPending := by
  have hbefore : w.mission.status = .running := by
    by_contra hne
    exact MissionStatus.ne_running_of_later (h.mission.later hs) hne hrun
  have hold (hr : w.mission.requestedRuntime = true) : w'.CancelPending :=
    hs.pending_step h (hs.pending hr hbefore) hrun
  cases h.mission with
  | kept same => exact hold (same ▸ hflag)
  | flagged runs status raw result requested => exact (requested hflag).elim hold id
  | cancelled runs raw put => exact hold (by simpa [put] using hflag)
  | put runs input e result raw pc asked mem next put => exact hold (by simpa [put] using hflag)

theorem landed_step (h : Stepped upper w action w') :
    ∀ e ∈ w'.execs.rows, e.pc.landed = true → w'.mission.status ≠ .running := by
  intro e' he' hl
  obtain ⟨he, -⟩ | ⟨_, _, _, _, _, -, -, -, -, rfl⟩ | ⟨input, e, effect, pc, -, he, hnext, hw, rfl⟩ :=
    h.mem_execs he'
  · exact MissionStatus.ne_running_of_later (h.mission.later hs) (hs.landed e' he hl)
  · cases hl
  · obtain hbefore | ⟨result, rfl⟩ := (RunExecution.moves hnext).landed hl
    · exact MissionStatus.ne_running_of_later (h.mission.later hs) (hs.landed e he hbefore)
    · obtain ⟨status, hfits⟩ := w.mission.answer_fits result
      rw [hw]
      exact MissionState.put_ne_running hs.stated hfits

theorem carried_step (hok : missionFenced upper w action = true) (h : Stepped upper w action w') :
    ∀ e ∈ w'.execs.rows, ∀ raw, e.pc.payload = some raw → w'.mission.Showed raw := by
  intro e' he' raw hraw
  have hlater := h.mission.later hs
  obtain ⟨he, -⟩ | ⟨_, _, _, _, _, -, -, -, -, rfl⟩ | ⟨input, e, effect, pc, hact, he, hnext, -, rfl⟩ :=
    h.mem_execs he'
  · exact (hs.carried e' he raw hraw).mono hlater
  · cases hraw
  · obtain hbefore | ⟨rfl, -, hpc⟩ := (RunExecution.moves hnext).payload hraw
    · exact (hs.carried e he raw hbefore).mono hlater
    · refine (hs.stated.showed ?_).mono hlater
      obtain hl | ⟨hstage, moment, hex, rfl⟩ := hpc
      · exact hs.landed e he hl
      · subst hact
        have hrun := (Bool.and_eq_true_iff.mp hok).2
        simp only [Table.get?_of_mem he, all_some, hstage, Bool.and_eq_true, decide_eq_true_eq] at hrun
        exact hrun.2

theorem read_step (h : Stepped upper w action w') :
    ∀ e ∈ w'.execs.rows, ∀ result, e.pc.read = some result → result.status = .cancelled →
      w'.mission.status = .cancelled := by
  intro e' he' result hread hc
  have hkeep (hm : w.mission.status = .cancelled) : w'.mission.status = .cancelled :=
    MissionStatus.eq_cancelled_of_later (hm ▸ h.mission.later hs)
  obtain ⟨he, -⟩ | ⟨_, _, _, _, _, -, -, -, -, rfl⟩ | ⟨input, e, effect, pc, -, he, hnext, -, rfl⟩ :=
    h.mem_execs he'
  · exact hkeep (hs.read e' he result hread hc)
  · cases hread
  · obtain hbefore | ⟨rfl, -⟩ := (RunExecution.moves hnext).read hread
    · exact hkeep (hs.read e he result hbefore hc)
    · exact hkeep (hs.stated.result hc)

theorem decided_step (h : Stepped upper w action w') :
    ∀ e ∈ w'.execs.rows, ∀ decision, e.pc = .writing decision →
      ∃ persisted, decision.status = decision.raw.finalStatus persisted := by
  intro e' he' decision hpc
  obtain ⟨he, -⟩ | ⟨_, _, _, _, _, -, -, -, -, rfl⟩ | ⟨input, e, effect, pc, -, he, hnext, -, rfl⟩ :=
    h.mem_execs he'
  · exact hs.decided e' he decision hpc
  · cases hpc
  · obtain hbefore | hnew := (RunExecution.moves hnext).writing hpc
    · exact hs.decided e he decision hbefore
    · exact hnew

theorem collected_kept (hok : missionFenced upper w action = true) (h : Stepped upper w action w')
    {e : RunExecution} (he : e ∈ w.execs.rows) (hh : w.holds e.claim = true) {raw : RawMission}
    (hraw : e.pc.collected = some raw) : raw.status = some w'.mission.status := by
  have hst := hs.collected e he hh raw hraw
  have hpast : e.pc.past = true := by simp [Pc.past, hraw]
  obtain hsame | ⟨hrun, -⟩ := h.mission.status hs hok (read_of_past he hh hpast)
  · rw [hsame]
    exact hst
  · obtain ⟨status, hst₀, hknown, -⟩ := hs.carried e he raw (RunExecution.payload_of_collected hraw)
    obtain rfl := Option.some.inj (hst₀.symm.trans hst)
    rw [hrun] at hknown
    cases hknown

theorem collected_step (hok : missionFenced upper w action = true) (h : Stepped upper w action w') :
    ∀ e ∈ w'.execs.rows, w'.holds e.claim = true → ∀ raw, e.pc.collected = some raw →
      raw.status = some w'.mission.status := by
  intro e' he' hh' raw hraw
  obtain ⟨he, -⟩ | ⟨_, _, _, _, _, -, -, -, -, rfl⟩ | ⟨input, e, effect, pc, -, he, hnext, hw, rfl⟩ :=
    h.mem_execs he'
  · exact hs.collected_kept hok h he (h.holds_before hs.toSound he hh') hraw
  · cases hraw
  · obtain hbefore | ⟨rfl, rfl⟩ := (RunExecution.moves hnext).collected hraw
    · exact hs.collected_kept hok h he (h.holds_before hs.toSound he hh') hbefore
    · rw [hw]
      exact hs.stated.payload

theorem not_cancelled {e : RunExecution} (he : e ∈ w.execs.rows) (hh : w.holds e.claim = true) :
    (w.runs.get e.run.id).any (·.status = .cancelled) = false := by
  have hopen := hs.open_of_holds he hh
  rw [hs.ours e he]
  obtain ⟨run, hrun⟩ := isSome_iff_exists.mp hs.known
  have hlive : run.status.terminal = false := by simpa [World.ended, hrun] using hopen
  rw [hrun, any_some, decide_eq_false_iff_not]
  intro hc
  rw [hc] at hlive
  cases hlive

theorem verdict_step (hok : missionFenced upper w action = true) (h : Stepped upper w action w') :
    ∀ e ∈ w'.execs.rows, w'.holds e.claim = true → ∀ status, e.pc.verdict = some status →
      w'.EndsAs status.1 := by
  intro e' he' hh' status hv
  have hkeep {e : RunExecution} (he : e ∈ w.execs.rows) (hh : w.holds e.claim = true)
      (hv : e.pc.verdict = some status) : w'.EndsAs status.1 :=
    hs.endsAs_step hok h (read_of_past he hh (by simp [Pc.past, hv])) (hs.verdict e he hh status hv)
  obtain ⟨he, -⟩ | ⟨_, _, _, _, _, -, -, -, -, rfl⟩ | ⟨input, e, effect, pc, hact, he, hnext, hw, rfl⟩ :=
    h.mem_execs he'
  · exact hkeep he (h.holds_before hs.toSound he hh') hv
  · cases hv
  have hh : w.holds e.claim = true := h.holds_before hs.toSound he hh'
  have hlive := hs.not_cancelled he hh
  obtain hbefore | ⟨raw, hraw, rfl, rfl⟩ | hcancelled | ⟨rfl, hstage, hflag, rfl, moment, hex, rfl⟩ :=
    (RunExecution.moves hnext).verdict hv
  · exact hkeep he hh hbefore
  · -- the verdict of an open run is the mission's own status
    have hst := hs.collected e he hh raw hraw
    obtain ⟨status, hst₀, hknown, -⟩ := hs.carried e he raw (RunExecution.payload_of_collected hraw)
    obtain rfl := Option.some.inj (hst₀.symm.trans hst)
    obtain ⟨r, hr⟩ := isSome_iff_exists.mp hknown
    refine hs.endsAs_of_kept h (by rw [hw]; rfl) (Or.inl ?_)
    rw [RawMission.finalStatus, if_neg (by rw [hlive]; nofun), RawMission.runStatus_of hst hr, hr]
  · cases hlive.symm.trans hcancelled
  · -- the execution gives way to a requested cancellation
    subst hact
    have hopen := (Bool.and_eq_true_iff.mp hok).2
    simp only [Table.get?_of_mem he, all_some, hstage, hh, hflag, Bool.not_true, Bool.false_or,
      Bool.and_eq_true, Bool.not_eq_true'] at hopen
    exact hs.endsAs_of_kept h (by rw [hw]; rfl) (endsAs_cancelled hopen.2 (hs.pending hflag))

end

theorem mission_of_end (h : Stepped upper w action w') (hid : w'.runId = w.runId) (he : w.ended = false)
    (he' : w'.ended = true) : w'.mission = w.mission := by
  have hruns : w'.runs ≠ w.runs := by
    intro hruns
    rw [World.ended, hruns, hid, ← World.ended, he] at he'
    cases he'
  cases h.mission with
  | kept same => exact same
  | flagged runs | cancelled runs | put runs => exact absurd runs hruns

theorem ends_step (hs : Agreeing w) (hok : missionFenced upper w action = true)
    (h : Stepped upper w action w') :
    ∀ run, w'.runs.get w'.runId = some run → run.status.terminal = true → w'.EndsAs run.status := by
  intro run' hrun' hterminal
  obtain ⟨hid, v, v', hv, hv', hc⟩ := h.change hs.toSound
  have hended' : w'.ended = true := by simp [World.ended, hrun', hterminal]
  cases he : w.ended with
  | true =>
    have hrun : w.runs.get w.runId = some v.run := (view_eq hv).1
    have hst : run'.status = v.run.status := by
      obtain rfl := Option.some.inj (hrun'.symm.trans (hid ▸ (view_eq hv').1))
      exact (hc.absorbed (by rwa [← ended_eq hv])).1
    rw [hst]
    exact hs.endsAs_step hok h (read_of_ended he) (hs.ends v.run hrun (hst ▸ hterminal))
  | false =>
    have hsame := mission_of_end h hid he hended'
    obtain ⟨hfail, hcancel⟩ := Bool.and_eq_true_iff.mp hok
    have hends := h.ends hs.toSound he hended'
    rw [hrun'] at hends
    simp only [map_some, Option.some.injEq] at hends
    obtain ⟨e, moment, hex, outcome, status, rfl, hmem, hstage, hholds, hst⟩ |
      ⟨claim, before, hfailing, hlast, -, hst⟩ | ⟨id, moment, actorUserId, rfl, hst⟩ := hends
    · rw [hst]
      exact hs.endsAs_of_kept h (by rw [hsame]) (hs.verdict e hmem hholds status (by rw [hstage]; rfl))
    · rw [hfailing, all_some, hlast] at hfail
      rw [hst]
      refine Or.inl ?_
      rw [hsame, show w.mission.status = .failed by simpa using hfail]
      rfl
    · rw [hst]
      have hopen : w.mission.status.concluded = false := by simpa [he] using hcancel
      refine endsAs_cancelled (by rw [hsame, hopen]) fun _ => Or.inl ?_
      cases h with
      | cancelledRun _ _ _ run fresh found pc stage =>
        rw [if_pos (cancel_of_open hs.toSound he _ _)] at stage
        exact ⟨_, Table.mem_put_self _ _, by rw [stage]; rfl⟩

theorem written (hs : Agreeing w) {e : RunExecution} (he : e ∈ w.execs.rows) {input : Input}
    {parts : List MessagePart} {pc : Pc} (hnext : e.next upper w input = some (.write parts, pc)) :
    parts = [cancelledPart] ∨ w.mission.status.concluded = true := by
  obtain ⟨decision, hstage, hparts⟩ := RunExecution.next_write hnext
  obtain ⟨status, hst, hknown, hlater, hsilent⟩ := hs.carried e he decision.raw (by rw [hstage]; rfl)
  by_cases hc : status = .cancelled
  · obtain ⟨persisted, hdecided⟩ := hs.decided e he decision hstage
    have hcancelled : decision.status.1 = .cancelled := by
      rw [hdecided, RawMission.finalStatus]
      split
      · rfl
      · exact RawMission.runStatus_of hst (by rw [hc]; rfl)
    obtain ⟨ht, -⟩ | ⟨-, rfl⟩ := hparts
    · cases hcancelled.symm.trans (Decision.completed_of_answer ht)
    · exact Or.inl (by rw [warningPart_cancelled (hsilent hc) hcancelled])
  · refine Or.inr (MissionStatus.concluded_of_later hlater (MissionStatus.concluded_iff.mpr ⟨?_, hc⟩))
    rintro rfl
    cases hknown

theorem spoken_step (hs : Agreeing w) (h : Stepped upper w action w') :
    w'.reply = [pendingPart] ∨ w'.reply = [cancelledPart] ∨ w'.mission.status.concluded = true := by
  have hlater := h.mission.later hs
  have hkeep (hr : w'.reply = w.reply) :
      w'.reply = [pendingPart] ∨ w'.reply = [cancelledPart] ∨ w'.mission.status.concluded = true := by
    rw [hr]
    exact hs.spoken.imp_right (Or.imp_right (MissionStatus.concluded_of_later hlater))
  cases h with
  | executed input e effect pc mem next =>
    obtain hr | ⟨parts, rfl, hr⟩ := w.perform_reply (.attempt e.claim) effect
    · exact hkeep hr
    · obtain rfl | hc := hs.written mem next
      · exact Or.inr (Or.inl hr)
      · exact Or.inr (Or.inr (MissionStatus.concluded_of_later hlater hc))
  | proceeded c effect pc mem next =>
    obtain hr | ⟨parts, rfl, hr⟩ := w.perform_reply (.call c.id) effect
    · exact hkeep hr
    · exact Or.inr (Or.inl (hr.trans (Call.next_write next).2))
  | _ => exact hkeep rfl

theorem step (hs : Agreeing w) (hok : missionFenced upper w action = true)
    (h : Stepped upper w action w') : Agreeing w' :=
  { hs.toSound.step h with
    stated := h.mission.stated hs
    pending := hs.pending_kept h
    landed := hs.landed_step h
    carried := hs.carried_step hok h
    read := hs.read_step h
    decided := hs.decided_step h
    collected := hs.collected_step hok h
    verdict := hs.verdict_step hok h
    ends := hs.ends_step hok h
    spoken := hs.spoken_step h }

end Agreeing

theorem submitted_agreeing {s : RunRepository} {new : SubmittedRun} (hw : WellFormed s)
    (hf : s.Fresh new.toNewRun) : Agreeing (submitted s new) := by
  have hv := submit_view_self hf hw.toWellKeyed
  have hnone : ∀ e ∈ (submitted s new).execs.rows, False := by simp [submitted]
  refine { submitted_sound hw hf with
    stated := MissionState.seeded_stated, pending := (fun hpending => by cases hpending),
    landed := fun e he => (hnone e he).elim, carried := fun e he => (hnone e he).elim, read := fun e he => (hnone e he).elim,
    decided := fun e he => (hnone e he).elim, collected := fun e he => (hnone e he).elim,
    verdict := fun e he => (hnone e he).elim, ends := fun run hrun hterminal => ?_,
    spoken := Or.inl rfl }
  obtain rfl := Option.some.inj (hrun.symm.trans (view_eq hv).1)
  cases hterminal

/-- Where outcomes and the mission are fenced, an ended run with nothing left in
progress has ended the way its mission did, and the reply of a cancelled run is
the placeholder or the notice. -/
theorem ended_run_agrees {ops : List RunOp} {s : RunRepository}
    (h : Machine.exec RunOp.step {} ops = some s) {new : SubmittedRun} (hf : s.Fresh new.toNewRun)
    {actions : List Action} {w : World}
    (hok : Machine.Along (World.step upper) (fun w action => missionFenced upper w action = true)
      (submitted s new) actions)
    (hw : Machine.exec (World.step upper) (submitted s new) actions = some w) {run : Run}
    (hrun : w.runs.get w.runId = some run) (hended : run.status.terminal = true)
    (hquiet : w.quiet = true) :
    w.mission.status.runStatus? = some run.status ∧
      (run.status = .cancelled → w.reply = [pendingPart] ∨ w.reply = [cancelledPart]) := by
  have hs : Agreeing w := Machine.invariant_along
    (fun _ _ _ hs hok hstep => Agreeing.step hs hok (stepped hstep))
    (submitted_agreeing (RunOp.exec_wellFormed h) hf) hok hw
  obtain hst | ⟨-, -, hp⟩ := hs.ends run hrun hended
  · refine ⟨hst, fun hc => ?_⟩
    obtain hr | hr | hconcluded := hs.spoken
    · exact Or.inl hr
    · exact Or.inr hr
    · rw [MissionStatus.not_concluded_of_cancelled (hc ▸ hst)] at hconcluded
      cases hconcluded
  · exact absurd hp (not_pending_of_quiet hquiet)

/-- The run is cancelled when its worker has the answer of the completed mission
in hand; the worker writes after the cancel call, and loses its lease. -/
def cancelledAfterAnswer : List Action :=
  [.claim "a" 60 0] ++ nextSteps firstClaim 8 ++
    [.execute firstClaim (.returns { status := .completed, finalResponse := "42" })] ++
    nextSteps firstClaim 11 ++ [.cancelRun 0 5 "u"] ++ List.replicate 4 (.proceed 0) ++
    nextSteps firstClaim 6 ++ [.execute firstClaim (.settles {} 6 0)]

/-- Then the run is cancelled, its mission completed, nothing is in progress, and
the reply is the answer. -/
theorem cancelled_run_of_completed_mission : ∃ w,
    Machine.exec (World.step id) (submitted {} (sampleRun 1)) cancelledAfterAnswer = some w ∧
    w.hasStatus .cancelled = true ∧ w.quiet = true ∧ w.mission.status = .completed ∧
    w.mission.raw.finalResponse = some "42" ∧ ∃ part ∈ w.reply, part.content = .str "42" := by
  have h : (Machine.exec (World.step id) (submitted {} (sampleRun 1)) cancelledAfterAnswer).any (fun w =>
      w.hasStatus .cancelled && (w.quiet && (decide (w.mission.status = .completed) &&
        (decide (w.mission.raw.finalResponse = some "42") &&
          w.reply.any fun part => match part.content with
            | .str s => s = "42"
            | .null | .bool _ | .num _ | .arr _ | .obj _ => false)))) = true := by decide
  obtain ⟨w, hw, h⟩ := (Option.any_eq_true _ _).mp h
  simp only [Bool.and_eq_true, decide_eq_true_eq, List.any_eq_true] at h
  obtain ⟨hcancelled, hquiet, hcompleted, hresponse, part, hpart, hcontent⟩ := h
  refine ⟨w, hw, hcancelled, hquiet, hcompleted, hresponse, part, hpart, ?_⟩
  split at hcontent
  next hs => rw [hs, of_decide_eq_true hcontent]
  all_goals cases hcontent

/-- Between two attempts the store keeps the failure of the first; a run cancelled
then leaves a failed mission. -/
def cancelledBetweenAttempts : List Action :=
  [.claim "a" 60 0] ++ nextSteps firstClaim 8 ++
    [.execute firstClaim (.returns
      { status := .failed, finalResponse := "", errorCode := some "LLM_RATE_LIMITED" })] ++
    nextSteps firstClaim 16 ++ [.execute firstClaim (.settles {} 1 0), .cancelRun 0 5 "u"] ++
    List.replicate 4 (.proceed 0)

example : (Machine.exec (World.step id) (submitted {} (sampleRun 2)) cancelledBetweenAttempts).any (fun w =>
    w.hasStatus .cancelled && w.quiet && w.mission.status = .failed) = true := by decide

/-- The run is cancelled while its agent works, and the agent's answer discarded. -/
def cancelledInTime : List Action :=
  [.claim "a" 60 0] ++ nextSteps firstClaim 8 ++ [.cancelRun 0 5 "u"] ++ List.replicate 9 (.proceed 0) ++
    [.execute firstClaim (.returns { status := .completed, finalResponse := "42" })] ++
    nextSteps firstClaim 12 ++ [.execute firstClaim (.settles {} 6 0)]

theorem ended_run_agrees_cancelled : ∃ w run,
    Machine.exec (World.step id) (submitted {} (sampleRun 1)) cancelledInTime = some w ∧
    w.runs.get w.runId = some run ∧ run.status = .cancelled ∧
    w.mission.status.runStatus? = some .cancelled ∧
    (w.reply = [pendingPart] ∨ w.reply = [cancelledPart]) := by
  have h : (Machine.exec (World.step id) (submitted {} (sampleRun 1)) cancelledInTime).any (fun w =>
      w.quiet && (w.runs.get w.runId).any (·.status = .cancelled)) = true := by decide
  obtain ⟨w, hw, h⟩ := (Option.any_eq_true _ _).mp h
  obtain ⟨hquiet, h⟩ := Bool.and_eq_true_iff.mp h
  obtain ⟨run, hrun, hcancelled⟩ := (Option.any_eq_true _ _).mp h
  have hcancelled : run.status = .cancelled := of_decide_eq_true hcancelled
  have hempty : Machine.exec RunOp.step {} [] = some {} := rfl
  obtain ⟨hmission, hreply⟩ := ended_run_agrees hempty (by decide) (by decide) hw hrun
    (by rw [hcancelled]; rfl) hquiet
  exact ⟨w, run, hw, hrun, hcancelled, hcancelled ▸ hmission, hreply hcancelled⟩

end World
end SelericSwarm
