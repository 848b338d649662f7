import SelericSwarm.Executions
import SelericSwarm.RunEnding

/-! What one step of the world does to the run repository and to the claims.
Later modules use these and never unfold a step. -/
open Option

namespace SelericSwarm
open Keyed RunRepository

/-- The repository calls an execution makes, each for its own run or attempt. -/
inductive OwnCall (e : RunExecution) : Input → Pc → RunOp → Prop where
  | emits (input : Input) (pc : Pc) (event : ActivityEvent) : OwnCall e input pc (.appendEvent event)
  | starts (moment : Moment) (hex : String) (pc : Pc) (stage : e.pc = .starting)
      (after : pc = .started ∨ pc = .notStarted) : OwnCall e (.next moment hex) pc (.start e.run.id moment)
  | beats (lease : Duration) (moment : Moment) :
      OwnCall e (.beats lease moment) e.pc
        (.heartbeat e.attempt.id e.workerId lease (some e.attempt.version) moment)
  | finalizes (outcome : RunExecutionResult) (status : TerminalStatus) (event : ActivityEvent)
      (moment : Moment) (hex : String) (pc : Pc) (errorCode errorMessage : Option String)
      (stage : e.pc = .finalizing outcome status) :
      OwnCall e (.next moment hex) pc (.finalizeAttempt e.attempt.id e.workerId e.attempt.version status
        event moment errorCode errorMessage)
  | fails (message : String) (service : RunRecoveryService) (moment : Moment) (draw : Duration)
      (stage : e.pc = .failing message) :
      OwnCall e (.settles service moment draw) .finished (.transitionFailedAttempt e.attempt.id
        e.attempt.version (service.delay e.attempt draw) moment "EXECUTION_FAILED" message
        e.attempt.workerId none)

namespace RunExecution
variable {upper : String → String} {w : World} {e : RunExecution} {input : Input} {op : RunOp} {pc : Pc}

theorem proceed_call {moment : Moment} {hex : String}
    (h : e.proceed upper w moment hex = some (.call op, pc)) : OwnCall e (.next moment hex) pc op := by
  unfold proceed at h
  cases hpc : e.pc with
  | starting =>
    simp only [hpc, Option.some.injEq, Prod.mk.injEq, Effect.call.injEq] at h
    obtain ⟨rfl, rfl⟩ := h
    refine .starts moment hex _ hpc ?_
    split <;> simp
  | started =>
    simp only [hpc, Option.some.injEq, Prod.mk.injEq, Effect.call.injEq] at h
    exact h.1 ▸ .emits _ _ _
  | finalizing outcome status =>
    simp only [hpc, Option.some.injEq, Prod.mk.injEq, Effect.call.injEq] at h
    exact h.1 ▸ .finalizes outcome status _ moment hex _ _ _ hpc
  | writing decision | announcing decision =>
    simp only [hpc] at h
    split at h
    all_goals
      simp only [Option.some.injEq, Prod.mk.injEq, Effect.call.injEq, reduceCtorEq, false_and] at h
    all_goals exact h.1 ▸ .emits _ _ _
  | cancelling point stage =>
    simp only [hpc, Option.some.injEq, Prod.mk.injEq] at h
    cases hop : (stage.next w.mission).1 <;> simp [hop] at h
  | clearing backend => cases backend <;> simp [hpc] at h
  | _ =>
    simp only [hpc] at h
    repeat' split at h
    all_goals simp at h

theorem next_call (h : e.next upper w input = some (.call op, pc)) : OwnCall e input pc op := by
  cases input with
  | next moment hex => exact proceed_call h
  | emits event =>
    simp only [next, ite_none_right_eq_some, Option.some.injEq, Prod.mk.injEq,
      Effect.call.injEq] at h
    exact h.2.1 ▸ .emits _ _ event
  | beats lease moment =>
    simp only [next] at h
    split at h
    · simp only [Option.some.injEq, Prod.mk.injEq, Effect.call.injEq] at h
      obtain ⟨rfl, rfl⟩ := h
      exact .beats lease moment
    · simp at h
  | settles service moment draw =>
    simp only [next] at h
    split at h
    next message hpc =>
      simp only [Option.some.injEq, Prod.mk.injEq, Effect.call.injEq] at h
      obtain ⟨rfl, rfl⟩ := h
      exact .fails message service moment draw hpc
    · cases h
  | returns | raises =>
    simp only [next] at h
    split at h
    all_goals simp at h
  | fails | stops => simp [next] at h

end RunExecution
def RunRepository.failsLast (s : RunRepository) (claim : Claim) (before : Option Moment) : Bool :=
  (s.attempts.get? claim.1).any fun a =>
    a.status = .running && a.version = claim.2 && before.all (fun b => a.leaseExpiresAt.any (· ≤ b)) &&
      (s.items.get? a.runId).any (exhausted · a)

namespace World
variable {upper : String → String} {w w' : World} {action : Action}

/-- The claim whose failure an action reports, and the expiry it requires. -/
def failing (w : World) : Action → Option (Claim × Option Moment)
  | .execute key (.settles ..) =>
    (w.execs.get? key).bind fun e => match e.pc with
      | .failing _ => some (key, none)
      | _ => none
  | .recover _ attempt moment _ => some ((attempt.id, attempt.version), some moment)
  | _ => none

@[simp] theorem perform_runId (author : Author) (effect : Effect) :
    (w.perform author effect).runId = w.runId := by cases effect <;> rfl

@[simp] theorem perform_execs (author : Author) (effect : Effect) :
    (w.perform author effect).execs = w.execs := by cases effect <;> rfl

@[simp] theorem perform_calls (author : Author) (effect : Effect) :
    (w.perform author effect).calls = w.calls := by cases effect <;> rfl

inductive Stepped (upper : String → String) (w : World) : Action → World → Prop where
  | outside (op : RunOp) (other : op.about w.runs w.runId = false) (admissible : op.Admissible w.runs) :
      Stepped upper w (.outside op) (w.perform .submission (.call op))
  | claimed (workerId : String) (lease : Duration) (moment : Moment) (run : Run) (attempt : RunAttempt)
      (found : w.runs.get w.runId = some run)
      (granted : (w.runs.claim w.runId workerId lease moment).1 = some attempt) :
      Stepped upper w (.claim workerId lease moment)
        { w.perform .submission (.call (.claim w.runId workerId lease moment)) with
          execs := w.execs.put { run := run, attempt := attempt, workerId := workerId } }
  | recovered (service : RunRecoveryService) (attempt : RunAttempt) (moment : Moment) (draw : Duration)
      (admissible : (RunOp.recover service attempt moment draw).Admissible w.runs) :
      Stepped upper w (.recover service attempt moment draw)
        (w.perform (.attempt (attempt.id, attempt.version)) (.call (.recover service attempt moment draw)))
  | cancelledRun (id : Nat) (moment : Moment) (actorUserId : String) (run : Run)
      (fresh : w.calls.get? id = none) (found : w.runs.get w.runId = some run) (pc : CallPc)
      (stage : pc = if (w.runs.cancel w.runId moment
        (some (cancelRunEvent run actorUserId moment))).1.isSome then .placeholder else .done) :
      Stepped upper w (.cancelRun id moment actorUserId)
        { w.perform (.call id)
            (.call (.cancel w.runId moment (some (cancelRunEvent run actorUserId moment)))) with
          calls := w.calls.put { id := id, pc := pc } }
  | cancelledMission (id : Nat) (fresh : w.calls.get? id = none) :
      Stepped upper w (.cancelMission id)
        { w with calls := w.calls.put { id := id, pc := .cancelling .checking } }
  | executed (input : Input) (e : RunExecution) (effect : Effect) (pc : Pc) (mem : e ∈ w.execs.rows)
      (next : e.next upper w input = some (effect, pc)) :
      Stepped upper w (.execute e.claim input)
        { w.perform (.attempt e.claim) effect with
          execs := w.execs.put { e with pc := pc, wrote := e.wrote || effect.writes } }
  | proceeded (c : Call) (effect : Effect) (pc : CallPc) (mem : c ∈ w.calls.rows)
      (next : c.next w = some (effect, pc)) :
      Stepped upper w (.proceed c.id)
        { w.perform (.call c.id) effect with calls := w.calls.put { c with pc := pc } }

theorem stepped (h : w.step upper action = some w') : Stepped upper w action w' := by
  cases action with
  | outside op =>
    simp only [step, call] at h
    split at h
    · cases h
    next hother =>
      simp only [ite_none_right_eq_some, Option.some.injEq] at h
      obtain ⟨hadm, rfl⟩ := h
      exact .outside op (by simpa using hother) hadm
  | claim workerId lease moment =>
    simp only [step, bind_eq_some_iff, map_eq_some_iff] at h
    obtain ⟨run, hrun, attempt, hattempt, rfl⟩ := h
    exact .claimed workerId lease moment run attempt hrun hattempt
  | recover service attempt moment draw =>
    simp only [step, call, Action.author, ite_none_right_eq_some, Option.some.injEq] at h
    obtain ⟨-, hadm, rfl⟩ := h
    exact .recovered service attempt moment draw hadm
  | cancelRun id moment actorUserId =>
    simp only [step, ite_none_left_eq_some, map_eq_some_iff, Bool.not_eq_true,
      isSome_eq_false_iff, isNone_iff_eq_none] at h
    obtain ⟨hfresh, run, hrun, rfl⟩ := h
    exact .cancelledRun id moment actorUserId run hfresh hrun _ rfl
  | cancelMission id =>
    simp only [step, ite_none_left_eq_some, Option.some.injEq, Bool.not_eq_true,
      isSome_eq_false_iff, isNone_iff_eq_none] at h
    obtain ⟨hfresh, rfl⟩ := h
    exact .cancelledMission id hfresh
  | execute key input =>
    simp only [step, bind_eq_some_iff, map_eq_some_iff] at h
    obtain ⟨e, he, ⟨effect, pc⟩, hnext, rfl⟩ := h
    obtain rfl := Table.key_of_get? he
    exact .executed input e effect pc (Table.mem_of_get? he) hnext
  | proceed id =>
    simp only [step, bind_eq_some_iff, map_eq_some_iff] at h
    obtain ⟨c, hc, ⟨effect, pc⟩, hnext, rfl⟩ := h
    obtain rfl := Table.key_of_get? hc
    exact .proceeded c effect pc (Table.mem_of_get? hc) hnext

/-- The repository call of an action. -/
inductive Calls (w : World) : Action → RunOp → Prop where
  | outside (op : RunOp) (other : op.about w.runs w.runId = false) : Calls w (.outside op) op
  | claims (workerId : String) (lease : Duration) (moment : Moment) :
      Calls w (.claim workerId lease moment) (.claim w.runId workerId lease moment)
  | recovers (service : RunRecoveryService) (attempt : RunAttempt) (moment : Moment) (draw : Duration) :
      Calls w (.recover service attempt moment draw) (.recover service attempt moment draw)
  | cancels (id : Nat) (moment : Moment) (actorUserId : String) (event : Option ActivityEvent) :
      Calls w (.cancelRun id moment actorUserId) (.cancel w.runId moment event)
  | own (e : RunExecution) (input : Input) (pc : Pc) (op : RunOp) (mem : e ∈ w.execs.rows)
      (made : OwnCall e input pc op) : Calls w (.execute e.claim input) op

/-- Which actions do what to the run. -/
inductive Cause (w : World) : Action → Deed → Prop where
  | claimed (workerId : String) (lease : Duration) (moment : Moment) (attempt : RunAttempt) :
      Cause w (.claim workerId lease moment) (.claimed attempt)
  | renewed (action : Action) (attempt : RunAttempt) : Cause w action (.renewed attempt)
  | started (e : RunExecution) (moment : Moment) (hex : String) (mem : e ∈ w.execs.rows)
      (stage : e.pc = .starting) : Cause w (.execute e.claim (.next moment hex)) .started
  | finalized (e : RunExecution) (moment : Moment) (hex : String) (outcome : RunExecutionResult)
      (status : TerminalStatus) (attempt : RunAttempt) (event : ActivityEvent) (mem : e ∈ w.execs.rows)
      (stage : e.pc = .finalizing outcome status)
      (row : w.runs.attempts.get? e.attempt.id = some attempt)
      (version : attempt.version = e.attempt.version) :
      Cause w (.execute e.claim (.next moment hex)) (.settled attempt status event)
  | failed (action : Action) (claim : Claim) (before : Option Moment) (attempt : RunAttempt)
      (event : ActivityEvent) (failing : w.failing action = some (claim, before))
      (row : w.runs.attempts.get? claim.1 = some attempt) (version : attempt.version = claim.2)
      (last : w.runs.failsLast claim before = true) : Cause w action (.settled attempt .failed event)
  | retried (action : Action) (attempt : RunAttempt) : Cause w action (.retried attempt)
  | cancelled (id : Nat) (moment : Moment) (actorUserId : String) (event : Option ActivityEvent) :
      Cause w (.cancelRun id moment actorUserId) (.cancelled event)
  | appended (action : Action) (event : ActivityEvent) : Cause w action (.appended event)

/-- The shape every reachable world keeps. -/
structure Sound (w : World) : Prop where
  wellFormed : WellFormed w.runs
  known : (w.runs.get w.runId).isSome
  ours : ∀ e ∈ w.execs.rows, e.run.id = w.runId
  stored : ∀ e ∈ w.execs.rows, ∃ a, w.runs.attempts.get? e.attempt.id = some a ∧
    a.runId = w.runId ∧ e.attempt.version ≤ a.version

theorem Stepped.runs (h : Stepped upper w action w') :
    w'.runs = w.runs ∨ ∃ op, Calls w action op ∧ RunOp.step w.runs op = some w'.runs := by
  cases h with
  | outside op other admissible => exact Or.inr ⟨op, .outside op other, if_pos admissible⟩
  | claimed workerId lease moment => exact Or.inr ⟨_, .claims workerId lease moment, if_pos trivial⟩
  | recovered service attempt moment draw admissible =>
    exact Or.inr ⟨_, .recovers service attempt moment draw, if_pos admissible⟩
  | cancelledRun id moment actorUserId => exact Or.inr ⟨_, .cancels id moment actorUserId _, if_pos trivial⟩
  | cancelledMission => exact Or.inl rfl
  | executed input e effect pc mem next =>
    cases effect with
    | call op =>
      have made := RunExecution.next_call next
      refine Or.inr ⟨op, .own e input pc op mem made, if_pos ?_⟩
      cases made <;> trivial
    | _ => exact Or.inl rfl
  | proceeded c effect pc mem next =>
    refine Or.inl ?_
    cases effect with
    | call op =>
      unfold Call.next at next
      split at next
      all_goals simp only [Option.some.injEq, Prod.mk.injEq, reduceCtorEq, false_and] at next
      next stage _ => cases hop : (stage.next w.mission).1 <;> simp [hop] at next
    | _ => rfl

theorem about_of_does {s : RunRepository} {runId : String} {op : RunOp} {deed : Deed}
    (h : op.Does s runId deed) : (∃ event, deed = .appended event) ∨ op.about s runId = true := by
  cases op with
  | submit new => exact h.elim
  | claim | start | cancel => exact Or.inr (decide_eq_true h.1)
  | heartbeat =>
    obtain ⟨a, ha, hr, -⟩ := h
    exact Or.inr (by simp [RunOp.about, ha, hr])
  | finalizeAttempt =>
    obtain ⟨a, ha, -, hr, -⟩ := h
    exact Or.inr (by simp [RunOp.about, ha, hr])
  | transitionFailedAttempt | recover =>
    obtain ⟨run, a, errorCode, now, ha, -, -, -, hr, -⟩ := h
    exact Or.inr (by simp [RunOp.about, ha, hr])
  | appendEvent =>
    obtain ⟨-, n, m, rfl⟩ := h
    exact Or.inl ⟨_, rfl⟩

theorem cause_of_failsAttempt {claim : Claim} {before : Option Moment} {deed : Deed}
    (hf : w.failing action = some (claim, before))
    (h : RunOp.FailsAttempt w.runs w.runId claim.1 claim.2 before deed) : Cause w action deed := by
  obtain ⟨run, a, errorCode, now, ha, hst, hv, hexp, hr, hrun, rfl⟩ := h
  rw [failureDeed]
  split
  next hx =>
    refine .failed action claim before a _ hf ha hv ?_
    have hbefore : before.all (fun b => a.leaseExpiresAt.any (· ≤ b)) = true := by
      cases before with
      | none => rfl
      | some b => exact hexp b rfl
    simp only [RunRepository.failsLast, ha, any_some, hst, hv, hbefore, hr, hrun, hx, decide_true,
      Bool.and_self]
  · exact .retried action a

theorem Calls.cause {op : RunOp} {deed : Deed} (h : Calls w action op)
    (hd : op.Does w.runs w.runId deed) : Cause w action deed := by
  cases h with
  | outside op other =>
    obtain ⟨event, rfl⟩ | habout := about_of_does hd
    · exact .appended _ event
    · rw [habout] at other
      cases other
  | claims workerId lease moment =>
    obtain ⟨-, a, -, -, rfl⟩ := hd
    exact .claimed workerId lease moment a
  | recovers service attempt moment draw => exact cause_of_failsAttempt rfl hd
  | cancels id moment actorUserId event =>
    obtain ⟨-, rfl⟩ := hd
    exact .cancelled id moment actorUserId event
  | own e input pc op mem made =>
    cases made with
    | emits =>
      obtain ⟨-, n, m, rfl⟩ := hd
      exact .appended _ _
    | starts moment hex pc stage =>
      obtain ⟨-, rfl⟩ := hd
      exact .started e moment hex mem stage
    | beats =>
      obtain ⟨a, -, -, rfl⟩ := hd
      exact .renewed _ a
    | finalizes outcome status event moment hex pc errorCode errorMessage stage =>
      obtain ⟨a, ha, hv, -, rfl⟩ := hd
      exact .finalized e moment hex outcome status a _ mem stage ha hv
    | fails message service moment draw stage =>
      have hf : w.failing (.execute e.claim (.settles service moment draw)) = some (e.claim, none) := by
        simp [failing, Table.get?_of_mem mem, stage]
      exact cause_of_failsAttempt hf hd

theorem Stepped.change (hs : Sound w) (h : Stepped upper w action w') :
    w'.runId = w.runId ∧ ∃ v v', w.runs.view w.runId = some v ∧ w'.runs.view w.runId = some v' ∧
      Change (Cause w action) v v' := by
  obtain ⟨run, hrun⟩ := isSome_iff_exists.mp hs.known
  have hid : w'.runId = w.runId := by cases h <;> simp
  have hv := view_of_get hrun
  refine ⟨hid, ⟨run, w.runs.attemptsOf w.runId, w.runs.eventsOf w.runId⟩, ?_⟩
  obtain he | ⟨op, hcalls, hstep⟩ := h.runs
  · exact ⟨_, hv, he ▸ hv, .same⟩
  obtain ⟨new, rfl, hfresh, he⟩ | hsteps := RunOp.step_cases hs.wellFormed hstep
  · have hne : new.run.id ≠ w.runId := by
      intro hid
      have hnone := hfresh.1
      rw [hid, show w.runs.items.get? w.runId = some run from hrun] at hnone
      cases hnone
    exact ⟨_, hv, by rw [he, submit_view_of_ne hfresh hne, hv], .same⟩
  · obtain ⟨v', hv', hc⟩ := hsteps.view _ _ hv
    exact ⟨v', hv, hv', hc.mono fun deed hd => hcalls.cause hd⟩

section
variable (h : Stepped upper w action w')
include h

theorem Stepped.mem_execs {e' : RunExecution} (he : e' ∈ w'.execs.rows) :
    (e' ∈ w.execs.rows ∧ ∀ key input, action = .execute key input → e'.claim ≠ key) ∨
    (∃ workerId lease moment run attempt, action = .claim workerId lease moment ∧
      w.runs.get w.runId = some run ∧
      (w.runs.claim w.runId workerId lease moment).1 = some attempt ∧
      w'.runs = (w.runs.claim w.runId workerId lease moment).2 ∧
      e' = { run := run, attempt := attempt, workerId := workerId }) ∨
    ∃ input e effect pc, action = .execute e.claim input ∧ e ∈ w.execs.rows ∧
      e.next upper w input = some (effect, pc) ∧
      w' = { w.perform (.attempt e.claim) effect with
        execs := w.execs.put { e with pc := pc, wrote := e.wrote || effect.writes } } ∧
      e' = { e with pc := pc, wrote := e.wrote || effect.writes } := by
  cases h with
  | claimed workerId lease moment run attempt found granted =>
    obtain rfl | ⟨he, -⟩ := Table.mem_put_or he
    · exact Or.inr (Or.inl ⟨workerId, lease, moment, run, attempt, rfl, found, granted, rfl, rfl⟩)
    · exact Or.inl ⟨he, fun _ _ hact => by cases hact⟩
  | executed input e effect pc mem next =>
    obtain rfl | ⟨he, hne⟩ := Table.mem_put_or he
    · exact Or.inr (Or.inr ⟨input, e, effect, pc, rfl, mem, next, rfl, rfl⟩)
    · refine Or.inl ⟨he, fun key input hkey => ?_⟩
      obtain ⟨rfl, rfl⟩ := Action.execute.inj hkey
      exact hne
  | outside => exact Or.inl ⟨by simpa using he, fun _ _ hact => by cases hact⟩
  | recovered => exact Or.inl ⟨by simpa using he, fun _ _ hact => by cases hact⟩
  | cancelledRun => exact Or.inl ⟨by simpa using he, fun _ _ hact => by cases hact⟩
  | cancelledMission => exact Or.inl ⟨he, fun _ _ hact => by cases hact⟩
  | proceeded => exact Or.inl ⟨by simpa using he, fun _ _ hact => by cases hact⟩

theorem Stepped.call_moves {c : Call} (hc : c ∈ w.calls.rows) :
    c ∈ w'.calls.rows ∨ ∃ effect pc, c.next w = some (effect, pc) ∧
      w' = { w.perform (.call c.id) effect with calls := w.calls.put { c with pc := pc } } := by
  cases h with
  | cancelledRun id moment actorUserId run fresh =>
    refine Or.inl (Table.mem_put_of_ne hc fun hid => ?_)
    have hget := Table.get?_of_mem hc
    rw [hid, fresh] at hget
    cases hget
  | cancelledMission id fresh =>
    refine Or.inl (Table.mem_put_of_ne hc fun hid => ?_)
    have hget := Table.get?_of_mem hc
    rw [hid, fresh] at hget
    cases hget
  | proceeded c₁ effect pc mem next =>
    by_cases hid : c.id = c₁.id
    · obtain rfl := Table.eq_of_mem hc mem hid
      exact Or.inr ⟨effect, pc, next, rfl⟩
    · exact Or.inl (Table.mem_put_of_ne hc hid)
  | outside => exact Or.inl (by simpa using hc)
  | claimed => exact Or.inl (by simpa using hc)
  | recovered => exact Or.inl (by simpa using hc)
  | executed => exact Or.inl (by simpa using hc)

theorem Stepped.mem_calls {c' : Call} (hc : c' ∈ w'.calls.rows) :
    c' ∈ w.calls.rows ∨
    (∃ moment actorUserId event, action = .cancelRun c'.id moment actorUserId ∧
      w'.runs = (w.runs.cancel w.runId moment event).2 ∧
      c'.pc = if (w.runs.cancel w.runId moment event).1.isSome then .placeholder else .done) ∨
    c'.pc = .cancelling .checking ∨
    ∃ c effect pc, c ∈ w.calls.rows ∧ c.next w = some (effect, pc) ∧ c' = { c with pc := pc } := by
  cases h with
  | cancelledRun id moment actorUserId run fresh found pc stage =>
    obtain rfl | ⟨hc, -⟩ := Table.mem_put_or hc
    · exact Or.inr (Or.inl ⟨moment, actorUserId, _, rfl, rfl, stage⟩)
    · exact Or.inl (by simpa using hc)
  | cancelledMission id fresh =>
    obtain rfl | ⟨hc, -⟩ := Table.mem_put_or hc
    · exact Or.inr (Or.inr (Or.inl rfl))
    · exact Or.inl hc
  | proceeded c effect pc mem next =>
    obtain rfl | ⟨hc, -⟩ := Table.mem_put_or hc
    · exact Or.inr (Or.inr (Or.inr ⟨c, effect, pc, mem, next, rfl⟩))
    · exact Or.inl (by simpa using hc)
  | _ => exact Or.inl (by simpa using hc)

theorem Stepped.stored {k : String} {a : RunAttempt} (ha : w.runs.attempts.get? k = some a) :
    ∃ a', w'.runs.attempts.get? k = some a' ∧ a.Later a' := by
  obtain he | ⟨op, -, hstep⟩ := h.runs
  · exact ⟨a, he ▸ ha, .refl a⟩
  · exact RunOp.step_later hstep ha

end

theorem Sound.step (hs : Sound w) (h : Stepped upper w action w') : Sound w' := by
  obtain ⟨hid, v, v', hv, hv', hc⟩ := h.change hs
  have hstored : ∀ e ∈ w.execs.rows, ∃ a, w'.runs.attempts.get? e.attempt.id = some a ∧
      a.runId = w.runId ∧ e.attempt.version ≤ a.version := by
    intro e he
    obtain ⟨a, ha, hr, hle⟩ := hs.stored e he
    obtain ⟨a', ha', hlater⟩ := h.stored ha
    exact ⟨a', ha', hlater.runId.trans hr, hle.trans hlater.version⟩
  refine { wellFormed := ?_, known := ?_, ours := ?_, stored := ?_ }
  · obtain he | ⟨op, -, hstep⟩ := h.runs
    · exact he ▸ hs.wellFormed
    · exact RunOp.step_wellFormed hs.wellFormed hstep
  · rw [hid, RunRepository.get, (view_eq hv').1]
    rfl
  · intro e' he'
    rw [hid]
    obtain ⟨he, -⟩ | ⟨workerId, lease, moment, run, attempt, -, hrun, -, -, rfl⟩ |
      ⟨input, e, effect, pc, -, he, -, -, rfl⟩ := h.mem_execs he'
    · exact hs.ours e' he
    · exact Table.key_of_get? hrun
    · exact hs.ours e he
  · intro e' he'
    rw [hid]
    obtain ⟨he, -⟩ | ⟨workerId, lease, moment, run, attempt, -, -, hclaim, hruns, rfl⟩ |
      ⟨input, e, effect, pc, -, he, -, -, rfl⟩ := h.mem_execs he'
    · exact hstored e' he
    · obtain hno | ⟨a, -, hr, -, hyes⟩ := w.runs.claim_cases w.runId workerId lease moment
      · rw [hno] at hclaim
        cases hclaim
      · rw [hyes] at hclaim hruns
        obtain rfl := Option.some.inj hclaim
        exact ⟨a.claimedBy workerId lease moment, by rw [hruns]; exact Table.get?_put_self _ _, hr, le_rfl⟩
    · exact hstored e he

/-- An execution that is still there after a step, or the one that moved; a new
claim has a key of its own. -/
theorem Stepped.exec_moves (hs : Sound w) (h : Stepped upper w action w') {e : RunExecution}
    (he : e ∈ w.execs.rows) :
    e ∈ w'.execs.rows ∨ ∃ input effect pc, e.next upper w input = some (effect, pc) ∧
      w' = { w.perform (.attempt e.claim) effect with
        execs := w.execs.put { e with pc := pc, wrote := e.wrote || effect.writes } } := by
  cases h with
  | claimed workerId lease moment run attempt found granted =>
    refine Or.inl (Table.mem_put_of_ne he fun hkey => ?_)
    obtain hno | ⟨a, ha, -, -, hyes⟩ := w.runs.claim_cases w.runId workerId lease moment
    · rw [hno] at granted
      cases granted
    · rw [hyes] at granted
      obtain rfl := Option.some.inj granted
      obtain ⟨hid, hversion⟩ := Prod.mk.inj hkey
      obtain ⟨b, hb, -, hle⟩ := hs.stored e he
      have hid : e.attempt.id = a.id := hid
      have hversion : e.attempt.version = a.version + 1 := hversion
      rw [hid, ha] at hb
      obtain rfl := Option.some.inj hb
      omega
  | executed input e₁ effect pc mem next =>
    by_cases hkey : e.claim = e₁.claim
    · obtain rfl := Table.eq_of_mem he mem hkey
      exact Or.inr ⟨input, effect, pc, next, rfl⟩
    · exact Or.inl (Table.mem_put_of_ne he hkey)
  | outside => exact Or.inl (by simpa using he)
  | recovered => exact Or.inl (by simpa using he)
  | cancelledRun => exact Or.inl (by simpa using he)
  | cancelledMission => exact Or.inl he
  | proceeded => exact Or.inl (by simpa using he)

theorem submitted_sound {s : RunRepository} {new : SubmittedRun} (hw : WellFormed s)
    (hf : s.Fresh new.toNewRun) : Sound (submitted s new) := by
  refine { wellFormed := submit_wellFormed hf hw, known := ?_, ours := by simp [submitted],
           stored := by simp [submitted] }
  rw [submitted, RunRepository.get, (view_eq (submit_view_self hf hw.toWellKeyed)).1]
  rfl

/-! Who holds the run. -/

theorem ended_eq {v : RunView} (hv : w.runs.view w.runId = some v) : w.ended = v.run.status.terminal := by
  simp [ended, RunRepository.get, (view_eq hv).1]

theorem hasStatus_eq {v : RunView} (hv : w.runs.view w.runId = some v) (status : RunStatus) :
    w.hasStatus status = decide (v.run.status = status) := by
  simp [hasStatus, RunRepository.get, (view_eq hv).1]

theorem Sound.holder (hs : Sound w) {e : RunExecution} (he : e ∈ w.execs.rows)
    (hh : w.holds e.claim = true) {v : RunView} (hv : w.runs.view w.runId = some v) :
    ∃ past a, Paired v past a ∧ a.id = e.attempt.id ∧ a.status = .running ∧
      a.version = e.attempt.version := by
  obtain ⟨a, ha, hst, hver⟩ := holds_iff.mp hh
  obtain ⟨b, hb, hr, -⟩ := hs.stored e he
  obtain rfl := Option.some.inj (ha.symm.trans hb)
  obtain ⟨v', past, hv', hp⟩ := hs.wellFormed.current (Table.mem_of_get? ha) (by rw [hst]; rfl)
  rw [hr, hv] at hv'
  obtain rfl := Option.some.inj hv'
  exact ⟨past, a, hp, Table.key_of_get? ha, hst, hver⟩

theorem Sound.open_of_holds (hs : Sound w) {e : RunExecution} (he : e ∈ w.execs.rows)
    (hh : w.holds e.claim = true) : w.ended = false := by
  obtain ⟨run, hrun⟩ := isSome_iff_exists.mp hs.known
  have hv := view_of_get hrun
  obtain ⟨past, a, hp, -, hst, -⟩ := hs.holder he hh hv
  have hl := hp.live_iff
  rw [hst, ← ended_eq hv] at hl
  simpa [RunAttemptStatus.live] using hl.symm

theorem Sound.holder_unique (hs : Sound w) {e e' : RunExecution} (he : e ∈ w.execs.rows)
    (he' : e' ∈ w.execs.rows) (hh : w.holds e.claim = true) (hh' : w.holds e'.claim = true) : e = e' := by
  obtain ⟨run, hrun⟩ := isSome_iff_exists.mp hs.known
  have hv := view_of_get hrun
  obtain ⟨past, a, hp, hid, -, hver⟩ := hs.holder he hh hv
  obtain ⟨past', a', hp', hid', -, hver'⟩ := hs.holder he' hh' hv
  obtain ⟨-, rfl⟩ := hp.append hp'.attempts
  exact Table.eq_of_mem he he' (Prod.ext (hid.symm.trans hid') (hver.symm.trans hver'))

theorem Stepped.holds_before (hs : Sound w) (h : Stepped upper w action w') {e : RunExecution}
    (he : e ∈ w.execs.rows) (hh : w'.holds e.claim = true) : w.holds e.claim = true := by
  obtain ⟨a', ha', hst, hver⟩ := holds_iff.mp hh
  obtain ⟨a, ha, -, hle⟩ := hs.stored e he
  obtain ⟨b, hb, hlater⟩ := h.stored ha
  obtain rfl := Option.some.inj (hb.symm.trans ha')
  have hge := hlater.version
  have hsame : b.version = a.version := by
    have : b.version = e.attempt.version := hver
    omega
  exact holds_iff.mpr ⟨a, ha, (hlater.held hsame).1.symm.trans hst, hsame.symm.trans hver⟩

theorem Stepped.ended (hs : Sound w) (h : Stepped upper w action w') (he : w.ended = true) :
    w'.ended = true := by
  obtain ⟨hid, v, v', hv, hv', hc⟩ := h.change hs
  rw [ended_eq hv] at he
  rw [ended_eq (hid ▸ hv'), (hc.absorbed he).1]
  exact he

/-- How a run ends: finalized by the execution that holds it, failed with its last
attempt, or cancelled. -/
theorem Stepped.ends (hs : Sound w) (h : Stepped upper w action w') (he : w.ended = false)
    (he' : w'.ended = true) :
    (∃ e moment hex outcome status, action = .execute e.claim (.next moment hex) ∧ e ∈ w.execs.rows ∧
      e.pc = .finalizing outcome status ∧ w.holds e.claim = true ∧
      (w'.runs.get w'.runId).map (·.status) = some status.1) ∨
    (∃ claim before, w.failing action = some (claim, before) ∧ w.runs.failsLast claim before = true ∧
      w.holds claim = true ∧ (w'.runs.get w'.runId).map (·.status) = some .failed) ∨
    ∃ id moment actorUserId, action = .cancelRun id moment actorUserId ∧
      (w'.runs.get w'.runId).map (·.status) = some .cancelled := by
  obtain ⟨hid, v, v', hv, hv', hc⟩ := h.change hs
  have hget : (w'.runs.get w'.runId).map (·.status) = some v'.run.status := by
    rw [hid, RunRepository.get, (view_eq hv').1]
    rfl
  rw [ended_eq hv] at he
  rw [ended_eq (hid ▸ hv')] at he'
  rw [hget]
  cases hc with
  | same | claimed | renewed | appended => cases he.symm.trans he'
  | started | retried => cases he'
  | settled status event errorCode errorMessage moment attempts running unsettled terminal type does =>
    have hholds (claim : Claim) {a : RunAttempt} (hrow : w.runs.attempts.get? claim.1 = some a)
        (hst : a.status = .running) (hver : a.version = claim.2) : w.holds claim = true :=
      holds_iff.mpr ⟨a, hrow, hst, hver⟩
    cases does with
    | finalized e moment hex outcome status attempt event mem stage row version =>
      exact Or.inl ⟨e, moment, hex, outcome, status, rfl, mem, stage, hholds e.claim row running version, rfl⟩
    | failed action claim before attempt event failing row version last =>
      exact Or.inr (Or.inl ⟨claim, before, failing, last, hholds claim row running version, rfl⟩)
  | cancelled moment event unsettled does =>
    cases does with
    | cancelled id moment actorUserId => exact Or.inr (Or.inr ⟨id, moment, actorUserId, rfl, rfl⟩)

theorem ended_of_cancel {moment : Moment} {event : Option ActivityEvent}
    (h : (w.runs.cancel w.runId moment event).1.isSome = true) (hid : w'.runId = w.runId)
    (hruns : w'.runs = (w.runs.cancel w.runId moment event).2) : w.ended = false ∧ w'.ended = true := by
  obtain ⟨hno, -⟩ | ⟨run, hrun, hopen, hyes⟩ := w.runs.cancel_cases w.runId moment event
  · rw [hno] at h
    cases h
  · have hrid : run.id = w.runId := Table.key_of_get? hrun
    constructor
    · simp [ended, RunRepository.get, hrun, hopen]
    · simp [ended, RunRepository.get, hruns, hid, hyes, Run.cancelledAt, hrid, RunStatus.terminal]

theorem cancel_of_open (hs : Sound w) (he : w.ended = false) (moment : Moment)
    (event : Option ActivityEvent) : (w.runs.cancel w.runId moment event).1.isSome = true := by
  obtain ⟨run, hrun⟩ := isSome_iff_exists.mp hs.known
  rw [ended_eq (view_of_get hrun)] at he
  obtain ⟨-, hall⟩ | ⟨_, -, -, hyes⟩ := w.runs.cancel_cases w.runId moment event
  · exact absurd ((hall run hrun).symm.trans he) nofun
  · rw [hyes]
    rfl

end World

/-! A small run to try the world on. -/

def sampleRun (maxAttempts : ℕ+) : SubmittedRun where
  runHex := .nil
  attemptHex := .nil
  threadId := "t"
  workspaceId := "w"
  requestedByUserId := "u"
  missionId := some "m"
  maxAttempts := maxAttempts
  metadata := { submission := some { query := "q", assistantMessageId := "message" } }
  startedAt := 0
  hasMission := rfl
  hasSubmission := rfl

/-- Its first attempt as worker `a` claims it at time 0. -/
def firstAttempt : RunAttempt := (sampleRun 1).attempt.claimedBy "a" 60 0

def firstClaim : Claim := (firstAttempt.id, firstAttempt.version)

/-- The claim of the attempt that follows it. -/
def secondClaim : Claim := (retryAttemptId (sampleRun 1).run.id 2, 1)

def nextSteps (key : Claim) (n : Nat) : List Action := List.replicate n (.execute key (.next 0 ""))

end SelericSwarm
