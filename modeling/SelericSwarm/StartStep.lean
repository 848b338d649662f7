import SelericSwarm.ExecutionSteps

/-! The start step of `_execute_submission` is fenced by the run's status alone.
When it always succeeds for the execution that holds the run, and when not. -/
open Option

namespace SelericSwarm
open Keyed RunRepository

namespace Pc

/-- The start step is still ahead. -/
def preStart : Pc → Bool
  | .entered | .flagCheck | .starting => true
  | _ => false

def atStart : Pc → Bool
  | .starting => true
  | _ => false

end Pc

namespace RunExecution
variable {upper : String → String} {w : World} {e : RunExecution} {input : Input} {effect : Effect} {pc : Pc}

theorem proceed_preStart {moment : Moment} {hex : String}
    (h : e.proceed upper w moment hex = some (effect, pc)) (hpc : pc.preStart = true) :
    e.pc = .entered ∨ e.pc = .flagCheck := by
  unfold proceed at h
  cases hstage : e.pc with
  | entered => exact Or.inl rfl
  | flagCheck => exact Or.inr rfl
  | starting =>
    simp only [hstage, Option.some.injEq, Prod.mk.injEq] at h
    obtain ⟨-, rfl⟩ := h
    split at hpc <;> cases hpc
  | asking point source =>
    simp only [hstage] at h
    split at h
    · obtain ⟨-, rfl⟩ := Prod.mk.inj (Option.some.inj h)
      cases point <;> cases hpc
    · obtain ⟨-, rfl⟩ := Prod.mk.inj (Option.some.inj h)
      cases source <;> cases point <;> cases hpc
  | cancelling point stage =>
    simp only [hstage, Option.some.injEq, Prod.mk.injEq] at h
    obtain ⟨-, rfl⟩ := h
    split at hpc
    · cases hpc
    · cases hpc
    · cases point <;> cases hpc
  | clearing backend =>
    cases backend <;>
    · simp only [hstage, Option.some.injEq, Prod.mk.injEq] at h
      obtain ⟨-, rfl⟩ := h
      cases hpc
  | finalizing outcome status =>
    simp only [hstage, Option.some.injEq, Prod.mk.injEq] at h
    obtain ⟨-, rfl⟩ := h
    split at hpc <;> cases hpc
  | _ =>
    simp only [hstage] at h
    repeat' split at h
    all_goals
      first
      | obtain ⟨-, rfl⟩ := Prod.mk.inj (Option.some.inj h)
        cases hpc
      | cases h

/-- Nothing leads back before the start step, and the step itself leads past it. -/
theorem next_preStart (h : e.next upper w input = some (effect, pc)) (hpc : pc.preStart = true) :
    e.pc.preStart = true ∧ ∀ moment hex, input = .next moment hex → e.pc ≠ .starting := by
  cases input with
  | next moment hex =>
    obtain hstage | hstage := proceed_preStart h hpc
    · exact ⟨by rw [hstage]; rfl, by rw [hstage]; intro _ _ _ hpc; cases hpc⟩
    · exact ⟨by rw [hstage]; rfl, by rw [hstage]; intro _ _ _ hpc; cases hpc⟩
  | beats lease moment =>
    simp only [next] at h
    split at h
    · obtain ⟨-, rfl⟩ := Prod.mk.inj (Option.some.inj h)
      exact ⟨hpc, fun _ _ hinput => by cases hinput⟩
    · simp only [ite_none_right_eq_some, Option.some.injEq, Prod.mk.injEq] at h
      obtain ⟨-, -, rfl⟩ := h
      cases hpc
  | emits event =>
    simp only [next, ite_none_right_eq_some, Option.some.injEq, Prod.mk.injEq] at h
    obtain ⟨-, -, rfl⟩ := h
    exact ⟨hpc, fun _ _ hinput => by cases hinput⟩
  | returns | raises | settles =>
    simp only [next] at h
    split at h
    · obtain ⟨-, rfl⟩ := Prod.mk.inj (Option.some.inj h)
      cases hpc
    · cases h
  | fails | stops =>
    simp only [next, ite_none_right_eq_some, Option.some.injEq, Prod.mk.injEq] at h
    obtain ⟨-, -, rfl⟩ := h
    cases hpc

theorem proceed_notStarted {moment : Moment} {hex : String}
    (h : e.proceed upper w moment hex = some (effect, .notStarted)) :
    (w.runs.compareAndSetStatus e.run.id [.queued] .running moment).1 = none ∧ e.pc = .starting := by
  unfold proceed at h
  cases hstage : e.pc with
  | starting =>
    simp only [hstage, Option.some.injEq, Prod.mk.injEq] at h
    obtain ⟨-, hpc⟩ := h
    split at hpc
    · cases hpc
    next hnone => exact ⟨by simpa using hnone, rfl⟩
  | asking point source =>
    simp only [hstage] at h
    split at h
    all_goals have hpc := (Prod.mk.inj (Option.some.inj h)).2
    · cases point <;> cases hpc
    · cases source <;> cases point <;> cases hpc
  | cancelling point stage =>
    simp only [hstage, Option.some.injEq, Prod.mk.injEq] at h
    obtain ⟨-, hpc⟩ := h
    split at hpc
    · cases hpc
    · cases hpc
    · cases point <;> cases hpc
  | clearing backend =>
    cases backend <;>
    · simp only [hstage, Option.some.injEq, Prod.mk.injEq] at h
      cases h.2
  | finalizing outcome status =>
    simp only [hstage, Option.some.injEq, Prod.mk.injEq] at h
    obtain ⟨-, hpc⟩ := h
    split at hpc <;> cases hpc
  | _ =>
    simp only [hstage] at h
    repeat' split at h
    all_goals
      first
      | cases (Prod.mk.inj (Option.some.inj h)).2
      | cases h

theorem next_notStarted (h : e.next upper w input = some (effect, .notStarted)) :
    e.pc = .notStarted ∨ ∃ moment,
      (w.runs.compareAndSetStatus e.run.id [.queued] .running moment).1 = none ∧ e.pc = .starting := by
  cases input with
  | next moment hex => exact Or.inr ⟨moment, proceed_notStarted h⟩
  | beats lease moment =>
    simp only [next] at h
    split at h
    · exact Or.inl (Prod.mk.inj (Option.some.inj h)).2
    · simp at h
  | emits event =>
    simp only [next, ite_none_right_eq_some, Option.some.injEq, Prod.mk.injEq] at h
    exact Or.inl h.2.2
  | returns | raises | settles =>
    simp only [next] at h
    split at h <;> simp at h
  | fails | stops => simp [next] at h

end RunExecution

namespace World
variable {upper : String → String} {w w' : World} {action : Action}

/-- No superseded execution takes the start step of a queued run, and no claim
takes a running attempt over after the start step. -/
def startFenced (w : World) : Action → Bool
  | .claim .. => !w.hasStatus .running || (w.runs.attemptsOf w.runId).all (·.status ≠ .running)
  | .execute key (.next ..) =>
    (w.execs.get? key).all fun e => !e.pc.atStart || !w.hasStatus .queued || w.holds key
  | _ => true

/-- Until the holder's start step the run is queued, and after a start step the
current attempt is running. -/
structure Startable (w : World) : Prop extends Sound w where
  queued : ∀ e ∈ w.execs.rows, w.holds e.claim = true → e.pc.preStart = true → w.hasStatus .queued = true
  started : ∀ e ∈ w.execs.rows, w.holds e.claim = true → e.pc ≠ .notStarted
  running : w.hasStatus .running = true →
    ∃ past a, (w.runs.view w.runId).map (·.attempts) = some (past ++ [a]) ∧ a.status = .running

theorem Startable.running_step (hs : Startable w) (hok : w.startFenced action = true)
    (h : Stepped upper w action w') (hr : w'.hasStatus .running = true) :
    ∃ past a, (w'.runs.view w'.runId).map (·.attempts) = some (past ++ [a]) ∧ a.status = .running := by
  obtain ⟨hid, v, v', hv, hv', hc⟩ := h.change hs.toSound
  rw [hasStatus_eq (hid ▸ hv'), decide_eq_true_eq] at hr
  rw [hid, hv']
  have hbefore : v.run.status = .running →
      ∃ past a, v.attempts = past ++ [a] ∧ a.status = .running := by
    intro hrun
    have := hs.running (by rw [hasStatus_eq hv, hrun]; rfl)
    simpa [hv] using this
  cases hc with
  | same => simpa using hbefore hr
  | claimed => exact ⟨_, _, rfl, rfl⟩
  | renewed lease moment attempts running => exact ⟨_, _, rfl, running⟩
  | appended => simpa using hbefore hr
  | started moment queued does =>
    cases does with
    | started e moment hex mem stage =>
      -- the fence lets only the holder of the queued run start it
      have hholds : w.holds e.claim = true := by
        have hq : w.hasStatus .queued = true := by rw [hasStatus_eq hv, queued]; rfl
        simpa [startFenced, Table.get?_of_mem mem, stage, Pc.atStart, hq] using hok
      obtain ⟨past, a, hp, -, hst, -⟩ := hs.holder mem hholds hv
      exact ⟨past, a, by rw [← hp.attempts]; rfl, hst⟩
  | settled status event errorCode errorMessage moment attempts running unsettled terminal =>
    obtain rfl : status = .running := hr
    cases terminal
  | retried => cases hr
  | cancelled => cases hr

theorem start_of_queued (hq : w.hasStatus .queued = true) (moment : Moment) :
    (w.runs.compareAndSetStatus w.runId [.queued] .running moment).1.isSome = true := by
  obtain ⟨run, hrun, hst⟩ := (Option.any_eq_true _ _).mp hq
  rw [RunRepository.get] at hrun
  simp [compareAndSetStatus, hrun, of_decide_eq_true hst]

theorem queued_step (hs : Sound w) (h : Stepped upper w action w') (hq : w.hasStatus .queued = true)
    (hopen : w'.ended = false)
    (hstart : ∀ e ∈ w.execs.rows, ∀ moment hex, action = .execute e.claim (.next moment hex) →
      e.pc ≠ .starting) : w'.hasStatus .queued = true := by
  obtain ⟨hid, v, v', hv, hv', hc⟩ := h.change hs
  rw [hasStatus_eq hv, decide_eq_true_eq] at hq
  rw [hasStatus_eq (hid ▸ hv'), decide_eq_true_eq]
  rw [ended_eq (hid ▸ hv')] at hopen
  cases hc with
  | same | claimed | renewed | appended => exact hq
  | started moment queued does =>
    cases does with
    | started e moment hex mem stage => exact absurd stage (hstart e mem moment hex rfl)
  | settled status event errorCode errorMessage moment attempts running unsettled terminal =>
    exact absurd (hopen.symm.trans terminal) nofun
  | retried => rfl
  | cancelled => cases hopen

theorem Startable.queued_of_claim (hs : Startable w) {workerId : String} {lease : Duration}
    {moment : Moment} {attempt : RunAttempt}
    (hok : w.startFenced (.claim workerId lease moment) = true)
    (hclaim : (w.runs.claim w.runId workerId lease moment).1 = some attempt) :
    w.hasStatus .queued = true := by
  obtain ⟨run, hrun⟩ := isSome_iff_exists.mp hs.known
  have hv := view_of_get hrun
  obtain hno | ⟨a, ha, har, hc, -⟩ := w.runs.claim_cases w.runId workerId lease moment
  · rw [hno] at hclaim
    cases hclaim
  have hmem : a ∈ w.runs.attemptsOf w.runId := mem_attemptsOf.mpr ⟨Table.mem_of_get? ha, har⟩
  obtain ⟨past, hp⟩ := (hs.wellFormed.shape _ _ hv).current_of_live hmem (RunAttempt.live_of_claimable hc)
  have hrec : run.status.recoverable = true := hp.paired.symm.trans (RunAttempt.live_of_claimable hc)
  rw [hasStatus_eq hv, decide_eq_true_eq]
  cases hst : run.status with
  | queued => rfl
  | running =>
    have hrunning : w.hasStatus .running = true := by rw [hasStatus_eq hv, hst]; rfl
    obtain ⟨past', b, hb, hbst⟩ := hs.running hrunning
    simp only [hv, map_some, Option.some.injEq] at hb
    have hall : ∀ c ∈ w.runs.attemptsOf w.runId, c.status ≠ .running := by
      simpa [startFenced, hrunning] using hok
    exact absurd hbst (hall b (by rw [hb]; simp))
  | waiting => rw [hst] at hrec; cases hrec
  | completed => rw [hst] at hrec; cases hrec
  | failed => rw [hst] at hrec; cases hrec
  | cancelled => rw [hst] at hrec; cases hrec

theorem Startable.step (hs : Startable w) (hok : w.startFenced action = true)
    (h : Stepped upper w action w') : Startable w' := by
  have hs' := hs.toSound.step h
  refine { hs' with queued := ?_, started := ?_, running := hs.running_step hok h }
  · intro e' he' hholds hpre
    have hopen := hs'.open_of_holds he' hholds
    -- only the holder may start the run, and it has moved past the start step then
    have hfence : ∀ e ∈ w.execs.rows, w.hasStatus .queued = true → ∀ moment hex,
        action = .execute e.claim (.next moment hex) → e.pc = .starting → w.holds e.claim = true := by
      rintro e he hq moment hex rfl hstage
      simpa [startFenced, Table.get?_of_mem he, hstage, Pc.atStart, hq] using hok
    obtain ⟨he, hother⟩ | ⟨workerId, lease, moment, run, attempt, rfl, hrun, hclaim, -, rfl⟩ |
      ⟨input, e, effect, pc, rfl, he, hnext, -, rfl⟩ := h.mem_execs he'
    · have hheld := h.holds_before hs.toSound he hholds
      have hq := hs.queued e' he hheld hpre
      refine queued_step hs.toSound h hq hopen fun e hem moment hex hact hstage => ?_
      obtain rfl := hs.holder_unique he hem hheld (hfence e hem hq moment hex hact hstage)
      exact hother _ _ hact rfl
    · exact queued_step hs.toSound h (hs.queued_of_claim hok hclaim) hopen fun _ _ _ _ hact => by cases hact
    · obtain ⟨hpre', hnot⟩ := RunExecution.next_preStart hnext hpre
      have hheld := h.holds_before hs.toSound he hholds
      refine queued_step hs.toSound h (hs.queued e he hheld hpre') hopen ?_
      intro e₁ he₁ moment hex hact hstage
      obtain ⟨hkey, hinput⟩ := Action.execute.inj hact
      obtain rfl := Table.eq_of_mem he he₁ hkey
      exact hnot moment hex hinput hstage
  · intro e' he' hholds hpc
    obtain ⟨he, -⟩ | ⟨workerId, lease, moment, run, attempt, -, -, -, -, rfl⟩ |
      ⟨input, e, effect, pc, rfl, he, hnext, -, rfl⟩ := h.mem_execs he'
    · exact hs.started e' he (h.holds_before hs.toSound he hholds) hpc
    · cases hpc
    · have hheld := h.holds_before hs.toSound he hholds
      obtain rfl : pc = .notStarted := hpc
      obtain hstage | ⟨moment, hnone, hstage⟩ := RunExecution.next_notStarted hnext
      · exact hs.started e he hheld hstage
      · have hq := hs.queued e he hheld (by rw [hstage]; rfl)
        have hsome := start_of_queued hq moment
        rw [← hs.ours e he, hnone] at hsome
        cases hsome

theorem submitted_startable {s : RunRepository} {new : SubmittedRun} (hw : WellFormed s)
    (hf : s.Fresh new.toNewRun) : Startable (submitted s new) := by
  have hv := submit_view_self hf hw.toWellKeyed
  refine { submitted_sound hw hf with queued := ?_, started := ?_, running := ?_ }
  · simp [submitted]
  · simp [submitted]
  · intro h
    rw [hasStatus_eq hv] at h
    cases h

/-- While every start step of a queued run is taken by its holder and no claim
takes over a started attempt, whoever holds the run can start it. -/
theorem holder_starts {ops : List RunOp} {s : RunRepository}
    (h : Machine.exec RunOp.step {} ops = some s) {new : SubmittedRun} (hf : s.Fresh new.toNewRun)
    {actions : List Action} {w : World}
    (hok : Machine.Along (World.step upper) (fun w action => w.startFenced action = true)
      (submitted s new) actions)
    (hw : Machine.exec (World.step upper) (submitted s new) actions = some w) :
    ∀ e ∈ w.execs.rows, w.holds e.claim = true → e.pc ≠ .notStarted ∧
      (e.pc.preStart = true → ∀ moment,
        (w.runs.compareAndSetStatus e.run.id [.queued] .running moment).1.isSome = true) := by
  have hs : Startable w := Machine.invariant_along
    (fun _ _ _ hs hok hstep => Startable.step hs hok (stepped hstep))
    (submitted_startable (RunOp.exec_wellFormed h) hf) hok hw
  intro e he hholds
  refine ⟨hs.started e he hholds, fun hpre moment => ?_⟩
  rw [hs.ours e he]
  exact start_of_queued (hs.queued e he hholds hpre) moment

/-- Worker `a` loses its lease right before the start step; the attempt is
recovered, worker `b` claims the next one, and `a` then starts the run. -/
def startedBySuperseded : List Action :=
  [.claim "a" 60 0] ++ nextSteps firstClaim 2 ++
    [.recover {} firstAttempt 60 0, .claim "b" 60 10000000] ++ nextSteps firstClaim 1

/-- Then the holder of the unexpired lease cannot start the run, which is not cancelled. -/
theorem superseded_start_blocks_holder : ∃ w,
    Machine.exec (World.step id) (submitted {} (sampleRun 3)) startedBySuperseded = some w ∧
    w.hasStatus .cancelled = false ∧
    ∃ e ∈ w.execs.rows, w.holds e.claim = true ∧ e.pc.preStart = true ∧
      e.attempt.leaseExpiresAt.any (10000000 < ·) = true ∧
      (w.runs.compareAndSetStatus e.run.id [.queued] .running 10000000).1 = none := by
  have h : (Machine.exec (World.step id) (submitted {} (sampleRun 3)) startedBySuperseded).any (fun w =>
      !w.hasStatus .cancelled && w.execs.rows.any fun e => w.holds e.claim && (e.pc.preStart &&
        (e.attempt.leaseExpiresAt.any (10000000 < ·) &&
          (w.runs.compareAndSetStatus e.run.id [.queued] .running 10000000).1.isNone))) = true := by decide
  obtain ⟨w, hw, h⟩ := (Option.any_eq_true _ _).mp h
  obtain ⟨hopen, h⟩ := Bool.and_eq_true_iff.mp h
  obtain ⟨e, he, h⟩ := List.any_eq_true.mp h
  obtain ⟨hholds, h⟩ := Bool.and_eq_true_iff.mp h
  obtain ⟨hpre, h⟩ := Bool.and_eq_true_iff.mp h
  obtain ⟨hlease, hcas⟩ := Bool.and_eq_true_iff.mp h
  exact ⟨w, hw, by simpa using hopen, e, he, hholds, hpre, hlease, by simpa using hcas⟩

/-- A retried attempt is claimed and started, the earlier execution having failed. -/
def startedByHolder : List Action :=
  [.claim "a" 60 0] ++ nextSteps firstClaim 2 ++
    [.execute firstClaim (.fails "boom"), .execute firstClaim (.settles {} 60 0),
      .claim "b" 60 10000000] ++ nextSteps secondClaim 1

theorem holder_starts_retried : ∃ w,
    Machine.exec (World.step id) (submitted {} (sampleRun 3)) startedByHolder = some w ∧
    ∃ e ∈ w.execs.rows, w.holds e.claim = true ∧ ∀ moment,
      (w.runs.compareAndSetStatus e.run.id [.queued] .running moment).1.isSome = true := by
  have h : (Machine.exec (World.step id) (submitted {} (sampleRun 3)) startedByHolder).any (fun w =>
      w.execs.rows.any fun e => w.holds e.claim && e.pc.preStart) = true := by decide
  obtain ⟨w, hw, h⟩ := (Option.any_eq_true _ _).mp h
  obtain ⟨e, he, h⟩ := List.any_eq_true.mp h
  obtain ⟨hholds, hpre⟩ := Bool.and_eq_true_iff.mp h
  have hempty : Machine.exec RunOp.step {} [] = some {} := rfl
  exact ⟨w, hw, e, he, hholds, (holder_starts hempty (by decide) (by decide) hw e he hholds).2 hpre⟩

end World
end SelericSwarm
