import SelericSwarm.ExecutionSteps

/-! The placeholder reply of `submit_message` and the ways in which a run can
end: which of them replace it. -/
namespace SelericSwarm
open Keyed RunRepository

/-- The cancellation of the run is committed, and its reply not yet rewritten. -/
def CallPc.beforeRewrite : CallPc → Bool
  | .placeholder | .rewriting => true
  | _ => false

def Pc.atFinalize : Pc → Bool
  | .finalizing .. => true
  | _ => false

theorem answerParts_replies (raw : RawMission) : awaitsReply (answerParts raw) = false := by
  simp [awaitsReply, answerParts]

theorem warningPart_replies (raw : RawMission) (status : TerminalStatus) :
    awaitsReply [warningPart raw status] = false := rfl

namespace RunExecution
variable {upper : String → String} {w : World} {e : RunExecution} {input : Input} {pc : Pc}
  {parts : List MessagePart}

theorem proceed_write {moment : Moment} {hex : String}
    (h : e.proceed upper w moment hex = some (.write parts, pc)) :
    ∃ decision, e.pc = .writing decision ∧
      ((decision.transcript = .answer ∧ parts = answerParts decision.raw) ∨
        (decision.transcript = .warning ∧ parts = [warningPart decision.raw decision.status])) := by
  unfold proceed at h
  cases hstage : e.pc with
  | writing decision =>
    simp only [hstage] at h
    split at h
    next ht => exact ⟨decision, rfl, Or.inl ⟨ht, (Effect.write.inj (Prod.mk.inj (Option.some.inj h)).1).symm⟩⟩
    · cases (Prod.mk.inj (Option.some.inj h)).1
    next ht => exact ⟨decision, rfl, Or.inr ⟨ht, (Effect.write.inj (Prod.mk.inj (Option.some.inj h)).1).symm⟩⟩
  | cancelling point stage =>
    simp only [hstage, Option.some.injEq, Prod.mk.injEq] at h
    cases hop : (stage.next w.mission).1 <;> simp [hop] at h
  | clearing backend => cases backend <;> simp [hstage] at h
  | _ =>
    simp only [hstage] at h
    repeat' split at h
    all_goals
      first
      | cases (Prod.mk.inj (Option.some.inj h)).1
      | cases h

theorem next_write (h : e.next upper w input = some (.write parts, pc)) :
    ∃ decision, e.pc = .writing decision ∧
      ((decision.transcript = .answer ∧ parts = answerParts decision.raw) ∨
        (decision.transcript = .warning ∧ parts = [warningPart decision.raw decision.status])) := by
  cases input with
  | next moment hex => exact proceed_write h
  | beats lease moment =>
    simp only [next] at h
    split at h <;> simp at h
  | returns | raises | settles =>
    simp only [next] at h
    split at h <;> simp at h
  | emits | fails | stops => simp [next] at h

theorem write_replies (h : e.next upper w input = some (.write parts, pc)) : awaitsReply parts = false := by
  obtain ⟨decision, -, ⟨-, rfl⟩ | ⟨-, rfl⟩⟩ := next_write h
  · exact answerParts_replies _
  · exact warningPart_replies _ _

end RunExecution

theorem Call.next_write {w : World} {c : Call} {parts : List MessagePart} {pc : CallPc}
    (h : c.next w = some (.write parts, pc)) : c.pc = .rewriting ∧ parts = [cancelledPart] := by
  unfold next at h
  cases hstage : c.pc with
  | rewriting =>
    simp only [hstage, Option.some.injEq, Prod.mk.injEq, Effect.write.injEq] at h
    exact ⟨rfl, h.1.symm⟩
  | cancelling stage =>
    simp only [hstage, Option.some.injEq, Prod.mk.injEq] at h
    cases hop : (stage.next w.mission).1 <;> simp [hop] at h
  | _ => simp [hstage] at h

namespace World
variable {upper : String → String} {w w' : World} {action : Action}

/-- While the reply is pending, no run is finalized by an execution that wrote no
reply, and none fails with its last attempt. -/
def repliesBeforeEnd (w : World) (action : Action) : Bool :=
  (w.failing action).all (fun f => !w.runs.failsLast f.1 f.2 || !awaitsReply w.reply) &&
    match action with
    | .execute key (.next ..) => (w.execs.get? key).all fun e =>
        !e.pc.atFinalize || !w.holds key || e.wrote || !awaitsReply w.reply
    | _ => true

theorem perform_reply (author : Author) (effect : Effect) :
    (w.perform author effect).reply = w.reply ∨
      ∃ parts, effect = .write parts ∧ (w.perform author effect).reply = parts := by
  cases effect with
  | write parts => exact Or.inr ⟨parts, rfl, rfl⟩
  | _ => exact Or.inl rfl

/-- A reply that is no longer pending never becomes so again. -/
theorem Stepped.awaits_before (h : Stepped upper w action w') (hr : awaitsReply w'.reply = true) :
    awaitsReply w.reply = true := by
  cases h with
  | executed input e effect pc mem next =>
    obtain he | ⟨parts, rfl, he⟩ := w.perform_reply (.attempt e.claim) effect
    · exact he ▸ hr
    · rw [he, RunExecution.write_replies next] at hr
      cases hr
  | proceeded c effect pc mem next =>
    obtain he | ⟨parts, rfl, he⟩ := w.perform_reply (.call c.id) effect
    · exact he ▸ hr
    · rw [he, (Call.next_write next).2] at hr
      cases hr
  | _ => exact hr

structure Replied (w : World) : Prop extends Sound w where
  wrote : ∀ e ∈ w.execs.rows, e.wrote = true → awaitsReply w.reply = false
  ended : w.ended = true → awaitsReply w.reply = true → ∃ c ∈ w.calls.rows, c.pc.beforeRewrite = true

theorem Replied.wrote_step (hs : Replied w) (h : Stepped upper w action w') :
    ∀ e ∈ w'.execs.rows, e.wrote = true → awaitsReply w'.reply = false := by
  intro e' he' hwrote
  by_contra hr
  simp only [Bool.not_eq_false] at hr
  have hbefore := h.awaits_before hr
  obtain ⟨he, -⟩ | ⟨workerId, lease, moment, run, attempt, -, -, -, -, rfl⟩ |
    ⟨input, e, effect, pc, -, he, hnext, rfl, rfl⟩ := h.mem_execs he'
  · rw [hs.wrote e' he hwrote] at hbefore
    cases hbefore
  · cases hwrote
  · obtain hold | hnew := Bool.or_eq_true_iff.mp hwrote
    · rw [hs.wrote e he hold] at hbefore
      cases hbefore
    · cases effect with
      | write parts =>
        have hparts : awaitsReply parts = true := hr
        rw [RunExecution.write_replies hnext] at hparts
        cases hparts
      | _ => cases hnew

theorem Replied.step (hs : Replied w) (hok : w.repliesBeforeEnd action = true)
    (h : Stepped upper w action w') : Replied w' := by
  refine { hs.toSound.step h with wrote := hs.wrote_step h, ended := ?_ }
  intro hended hr
  have hbefore := h.awaits_before hr
  obtain ⟨hfail, hfinal⟩ := Bool.and_eq_true_iff.mp hok
  cases he : w.ended with
  | true =>
    obtain ⟨c, hc, hpc⟩ := hs.ended he hbefore
    obtain hkeep | ⟨effect, pc, hnext, rfl⟩ := h.call_moves hc
    · exact ⟨c, hkeep, hpc⟩
    · refine ⟨_, Table.mem_put_self _ _, ?_⟩
      cases hstage : c.pc with
      | placeholder =>
        simp only [Call.next, hstage, hbefore, if_true, Option.some.injEq, Prod.mk.injEq] at hnext
        rw [← hnext.2]
        rfl
      | rewriting =>
        -- the rewrite itself ends the wait
        simp only [Call.next, hstage, Option.some.injEq, Prod.mk.injEq] at hnext
        rw [← hnext.1] at hr
        cases hr
      | _ => simp [hstage, CallPc.beforeRewrite] at hpc
  | false =>
    obtain ⟨e, moment, hex, outcome, status, rfl, hmem, hstage, hholds, -⟩ |
      ⟨claim, before, hfailing, hlast, -, -⟩ | ⟨id, moment, actorUserId, rfl, -⟩ :=
      h.ends hs.toSound he hended
    · have hwrote : e.wrote = true := by
        simpa [Table.get?_of_mem hmem, hstage, Pc.atFinalize, hholds, hbefore] using hfinal
      rw [hs.wrote e hmem hwrote] at hbefore
      cases hbefore
    · rw [hfailing, Option.all_some, hlast, hbefore] at hfail
      cases hfail
    · cases h with
      | cancelledRun _ _ _ run fresh found pc stage =>
        rw [if_pos (cancel_of_open hs.toSound he _ _)] at stage
        exact ⟨_, Table.mem_put_self _ _, by rw [stage]; rfl⟩

theorem submitted_replied {s : RunRepository} {new : SubmittedRun} (hw : WellFormed s)
    (hf : s.Fresh new.toNewRun) : Replied (submitted s new) := by
  have hv := submit_view_self hf hw.toWellKeyed
  refine { submitted_sound hw hf with wrote := by simp [submitted], ended := fun he => ?_ }
  rw [ended_eq hv] at he
  cases he

/-- Where no run ends under a pending reply by a finalized execution that wrote
none or by a last failure, an ended run has a reply as soon as the cancel calls
have rewritten theirs. -/
theorem ended_run_replied {ops : List RunOp} {s : RunRepository}
    (h : Machine.exec RunOp.step {} ops = some s) {new : SubmittedRun} (hf : s.Fresh new.toNewRun)
    {actions : List Action} {w : World}
    (hok : Machine.Along (World.step upper) (fun w action => w.repliesBeforeEnd action = true)
      (submitted s new) actions)
    (hw : Machine.exec (World.step upper) (submitted s new) actions = some w) (hended : w.ended = true)
    (hcalls : ∀ c ∈ w.calls.rows, c.pc.beforeRewrite = false) : awaitsReply w.reply = false := by
  have hs : Replied w := Machine.invariant_along
    (fun _ _ _ hs hok hstep => Replied.step hs hok (stepped hstep))
    (submitted_replied (RunOp.exec_wellFormed h) hf) hok hw
  by_contra hr
  obtain ⟨c, hc, hpc⟩ := hs.ended hended (by simpa using hr)
  rw [hcalls c hc] at hpc
  cases hpc

/-- The worker of the only attempt stops, and recovery finds its lease expired. -/
def expiredOnce : List Action :=
  [.claim "a" 60 0, .execute firstClaim .stops, .recover {} firstAttempt 60 0]

/-- Then the run has failed, nothing is in progress, and the reply still reads "Working…". -/
theorem expired_run_keeps_placeholder : ∃ w,
    Machine.exec (World.step id) (submitted {} (sampleRun 1)) expiredOnce = some w ∧
    w.ended = true ∧ (∀ e ∈ w.execs.rows, e.pc = .finished) ∧ w.calls.rows = [] ∧
    w.reply = [pendingPart] := by
  refine ⟨_, rfl, by decide, ?_, rfl, rfl⟩
  intro e he
  obtain rfl : e = _ := List.mem_singleton.mp he
  rfl

/-- The agent answers, and the worker carries the run to its end. -/
def answered : List Action :=
  [.claim "a" 60 0] ++ nextSteps firstClaim 8 ++
    [.execute firstClaim (.returns { status := .completed, finalResponse := "42" })] ++
    nextSteps firstClaim 18

theorem ended_run_replied_answered : ∃ w,
    Machine.exec (World.step id) (submitted {} (sampleRun 1)) answered = some w ∧ w.ended = true ∧
    awaitsReply w.reply = false := by
  have h : (Machine.exec (World.step id) (submitted {} (sampleRun 1)) answered).any (fun w =>
      w.ended && w.calls.rows.isEmpty) = true := by decide
  obtain ⟨w, hw, h⟩ := (Option.any_eq_true _ _).mp h
  obtain ⟨hended, hcalls⟩ := Bool.and_eq_true_iff.mp h
  have hempty : Machine.exec RunOp.step {} [] = some {} := rfl
  refine ⟨w, hw, hended, ended_run_replied hempty (by decide) (by decide) hw hended ?_⟩
  rw [List.isEmpty_iff.mp hcalls]
  exact fun call hcall => absurd hcall List.not_mem_nil

end World
end SelericSwarm
