import SelericSwarm.PendingReply

/-! Run and attempt rows are fenced by versions, the transcript is not. When the
reply of an ended run still is the one of whoever ended it. -/
open Option

namespace SelericSwarm
open Keyed RunRepository

def Effect.speaks : Effect → Bool
  | .write _ => true
  | .call op => op.announcesAnswer
  | _ => false

namespace World
variable {upper : String → String} {w w' : World} {action : Action}

/-- Executions speak only while they hold their claim, they end a run only after
writing its reply, and a cancellation comes only while the reply is pending. -/
def transcriptFenced (upper : String → String) (w : World) (action : Action) : Bool :=
  (w.failing action).all (fun f => !w.runs.failsLast f.1 f.2 || (w.execs.get? f.1).any (·.wrote)) &&
    match action with
    | .execute key input => (w.execs.get? key).all fun e =>
        (e.next upper w input).all (fun m => !m.1.speaks || w.holds key) &&
          (!e.pc.atFinalize || !w.holds key || e.wrote)
    | .cancelRun .. => w.ended || awaitsReply w.reply
    | _ => true

theorem author_of_failing {claim : Claim} {before : Option Moment}
    (h : w.failing action = some (claim, before)) : action.author = .attempt claim := by
  cases action with
  | execute key input =>
    cases input with
    | settles =>
      simp only [failing, bind_eq_some_iff] at h
      obtain ⟨e, -, h⟩ := h
      split at h
      · rw [Action.author, (Prod.mk.inj (Option.some.inj h)).1]
      · cases h
    | _ => cases h
  | recover =>
    rw [Action.author, (Prod.mk.inj (Option.some.inj h)).1]
  | _ => cases h

theorem Stepped.committer (h : Stepped upper w action w') :
    w'.ledger.committer =
      if (!w.ended && w'.ended) = true then some action.author else w.ledger.committer := by
  cases h with
  | executed input e effect pc =>
    cases effect with
    | call op => rfl
    | _ => simp [perform, World.ended]
  | proceeded c effect pc =>
    cases effect with
    | call op => rfl
    | _ => simp [perform, World.ended]
  | cancelledMission => simp [World.ended]
  | _ => rfl

/-- Who wrote the reply after a step: as before, an execution, or a cancel call
at its rewrite. A step that writes calls no repository method. -/
theorem Stepped.writer (h : Stepped upper w action w') :
    (w'.ledger.writer = w.ledger.writer ∧ w'.reply = w.reply) ∨ w'.runs = w.runs ∧
      ((∃ input e parts pc, action = .execute e.claim input ∧ e ∈ w.execs.rows ∧
        e.next upper w input = some (.write parts, pc) ∧ w'.ledger.writer = .attempt e.claim) ∨
      ∃ c ∈ w.calls.rows, c.pc = .rewriting ∧ w'.ledger.writer = .call c.id) := by
  cases h with
  | executed input e effect pc mem next =>
    cases effect with
    | write parts => exact Or.inr ⟨rfl, Or.inl ⟨input, e, parts, pc, rfl, mem, next, rfl⟩⟩
    | _ => exact Or.inl ⟨rfl, rfl⟩
  | proceeded c effect pc mem next =>
    cases effect with
    | write parts => exact Or.inr ⟨rfl, Or.inr ⟨c, mem, (Call.next_write next).1, rfl⟩⟩
    | _ => exact Or.inl ⟨rfl, rfl⟩
  | _ => exact Or.inl ⟨rfl, rfl⟩

theorem Stepped.late (h : Stepped upper w action w') (hl : w'.ledger.late = true) :
    w.ledger.late = true ∨ ∃ input e effect pc, action = .execute e.claim input ∧ e ∈ w.execs.rows ∧
      e.next upper w input = some (effect, pc) ∧ effect.speaks = true ∧ w.holds e.claim = false := by
  cases h with
  | executed input e effect pc mem next =>
    have hnew (hspeaks : effect.speaks = true) (hs : w.superseded (.attempt e.claim) = true) :
        ∃ input' e' effect' pc', Action.execute e.claim input = .execute e'.claim input' ∧
          e' ∈ w.execs.rows ∧ e'.next upper w input' = some (effect', pc') ∧ effect'.speaks = true ∧
          w.holds e'.claim = false :=
      ⟨input, e, effect, pc, rfl, mem, next, hspeaks, by simpa [superseded] using hs⟩
    cases effect with
    | call op =>
      obtain hold | hl := Bool.or_eq_true_iff.mp hl
      · exact Or.inl hold
      · simp only [Bool.and_eq_true] at hl
        exact Or.inr (hnew hl.1.1 hl.2)
    | write parts =>
      obtain hold | hl := Bool.or_eq_true_iff.mp hl
      · exact Or.inl hold
      · exact Or.inr (hnew rfl (Bool.and_eq_true_iff.mp hl).2)
    | none => exact Or.inl hl
    | mission => exact Or.inl hl
  | proceeded c effect pc =>
    cases effect with
    | call | write => exact Or.inl (by simpa [perform, superseded] using hl)
    | none => exact Or.inl hl
    | mission => exact Or.inl hl
  | cancelledMission => exact Or.inl hl
  | outside => exact Or.inl (by simpa [perform, superseded] using hl)
  | _ => exact Or.inl (by simpa [perform, RunOp.announcesAnswer] using hl)

structure Fenced (w : World) : Prop extends Sound w where
  wrote : ∀ e ∈ w.execs.rows, w.holds e.claim = true → e.wrote = true →
    w.ledger.writer = .attempt e.claim
  committed : w.ledger.committer.isSome = w.ended
  ofAttempt : ∀ claim, w.ledger.committer = some (.attempt claim) → w.ledger.writer = .attempt claim
  ofCall : ∀ id, w.ledger.committer = some (.call id) → w.ledger.writer = .call id ∨
    awaitsReply w.reply = true ∧ ∃ c ∈ w.calls.rows, c.id = id ∧ c.pc.beforeRewrite = true
  byWriter : w.ledger.committer ≠ some .submission
  calls : ∀ c ∈ w.calls.rows, c.pc.beforeRewrite = true → w.ledger.committer = some (.call c.id)
  onTime : w.ledger.late = false

namespace Fenced

theorem holds_of_speaks {upper : String → String} (hok : transcriptFenced upper w action = true)
    {e : RunExecution} {input : Input} {effect : Effect} {pc : Pc} (hact : action = .execute e.claim input)
    (he : e ∈ w.execs.rows) (hnext : e.next upper w input = some (effect, pc))
    (hspeaks : effect.speaks = true) : w.holds e.claim = true := by
  subst hact
  have h := (Bool.and_eq_true_iff.mp hok).2
  simp only [Table.get?_of_mem he, all_some, hnext, hspeaks, Bool.not_true, Bool.false_or,
    Bool.and_eq_true] at h
  exact h.1

section
variable (hs : Fenced w)
include hs

theorem writer_after_end (hok : transcriptFenced upper w action = true) (h : Stepped upper w action w')
    (hended : w.ended = true) :
    (w'.ledger.writer = w.ledger.writer ∧ w'.reply = w.reply) ∨
      ∃ c ∈ w.calls.rows, w.ledger.committer = some (.call c.id) ∧ w'.ledger.writer = .call c.id := by
  obtain hsame | ⟨-, ⟨input, e, parts, pc, hact, he, hnext, -⟩ | ⟨c, hc, hpc, hw⟩⟩ := h.writer
  · exact Or.inl hsame
  · have hopen := hs.open_of_holds he (holds_of_speaks hok hact he hnext rfl)
    exact absurd (hended.symm.trans hopen) nofun
  · exact Or.inr ⟨c, hc, hs.calls c hc (by rw [hpc]; rfl), hw⟩

theorem committer_step (h : Stepped upper w action w') : w'.ledger.committer.isSome = w'.ended := by
  rw [h.committer]
  cases he : w.ended with
  | true =>
    have hc := hs.committed
    rw [h.ended hs.toSound he]
    simpa [he] using hc
  | false =>
    have hc := hs.committed
    cases he' : w'.ended with
    | true => rfl
    | false => simpa [he] using hc

theorem committer_keep (h : Stepped upper w action w') {author : Author} (hc : w.ledger.committer = some author) :
    w'.ledger.committer = some author := by
  have he : w.ended = true := by rw [← hs.committed, hc]; rfl
  rw [h.committer, he]
  exact hc

theorem committer_cases (h : Stepped upper w action w') {author : Author} (hc : w'.ledger.committer = some author) :
    (w.ledger.committer = some author ∧ w.ended = true) ∨
      w.ended = false ∧ w'.ended = true ∧ action.author = author := by
  rw [h.committer] at hc
  split at hc
  next hnew =>
    simp only [Bool.and_eq_true, Bool.not_eq_true'] at hnew
    exact Or.inr ⟨hnew.1, hnew.2, Option.some.inj hc⟩
  · exact Or.inl ⟨hc, by rw [← hs.committed, hc]; rfl⟩

theorem wrote_step (hok : transcriptFenced upper w action = true) (h : Stepped upper w action w') :
    ∀ e ∈ w'.execs.rows, w'.holds e.claim = true → e.wrote = true →
      w'.ledger.writer = .attempt e.claim := by
  intro e' he' hholds hwrote
  -- a holder's reply is overwritten by nobody else
  have hkeep : ∀ e ∈ w.execs.rows, w.holds e.claim = true → e.wrote = true →
      w'.ledger.writer = .attempt e.claim := by
    intro e he hheld hw
    obtain ⟨hsame, -⟩ | ⟨-, ⟨input, e₁, parts, pc, hact, he₁, hnext, hw₁⟩ | ⟨c, hc, hpc, -⟩⟩ := h.writer
    · exact hsame.trans (hs.wrote e he hheld hw)
    · obtain rfl := hs.holder_unique he he₁ hheld (holds_of_speaks hok hact he₁ hnext rfl)
      exact hw₁
    · have hcommitted := hs.committed
      rw [hs.calls c hc (by rw [hpc]; rfl), hs.open_of_holds he hheld] at hcommitted
      cases hcommitted
  obtain ⟨he, -⟩ | ⟨workerId, lease, moment, run, attempt, -, -, -, -, rfl⟩ |
    ⟨input, e, effect, pc, -, he, hnext, rfl, rfl⟩ := h.mem_execs he'
  · exact hkeep e' he (h.holds_before hs.toSound he hholds) hwrote
  · cases hwrote
  · obtain hold | hnew := Bool.or_eq_true_iff.mp hwrote
    · exact hkeep e he (h.holds_before hs.toSound he hholds) hold
    · cases effect with
      | write parts => rfl
      | _ => cases hnew

/-- The step that ends a run leaves the reply of its author, or the cancel call
that is about to write it. -/
theorem writer_of_end (hok : transcriptFenced upper w action = true) (h : Stepped upper w action w')
    (he : w.ended = false) (he' : w'.ended = true) :
    (∃ claim, action.author = .attempt claim ∧ w'.ledger.writer = .attempt claim) ∨
      ∃ id, action.author = .call id ∧ awaitsReply w'.reply = true ∧
        ∃ c ∈ w'.calls.rows, c.id = id ∧ c.pc.beforeRewrite = true := by
  have hsame : w'.ledger.writer = w.ledger.writer ∧ w'.reply = w.reply := by
    obtain hsame | ⟨hruns, -⟩ := h.writer
    · exact hsame
    · obtain ⟨hid, -⟩ := h.change hs.toSound
      rw [World.ended, hruns, hid, ← World.ended, he] at he'
      cases he'
  obtain ⟨hfail, hmatch⟩ := Bool.and_eq_true_iff.mp hok
  rw [hsame.1, hsame.2]
  obtain ⟨e, moment, hex, outcome, status, rfl, hmem, hstage, hholds, -⟩ |
    ⟨claim, before, hfailing, hlast, hholds, -⟩ | ⟨id, moment, actorUserId, rfl, -⟩ :=
    h.ends hs.toSound he he'
  · simp only [Table.get?_of_mem hmem, all_some, hstage, Pc.atFinalize, hholds, Bool.not_true,
      Bool.false_or, Bool.and_eq_true] at hmatch
    exact Or.inl ⟨e.claim, rfl, hs.wrote e hmem hholds hmatch.2⟩
  · rw [hfailing, all_some, hlast] at hfail
    obtain ⟨e, hget, hwrote⟩ := (Option.any_eq_true _ _).mp hfail
    obtain rfl := Table.key_of_get? hget
    exact Or.inl ⟨e.claim, author_of_failing hfailing, hs.wrote e (Table.mem_of_get? hget) hholds hwrote⟩
  · refine Or.inr ⟨id, rfl, by simpa [he] using hmatch, ?_⟩
    cases h with
    | cancelledRun _ _ _ run fresh found pc stage =>
      rw [if_pos (cancel_of_open hs.toSound he _ _)] at stage
      exact ⟨_, Table.mem_put_self _ _, rfl, by rw [stage]; rfl⟩

theorem calls_step (h : Stepped upper w action w') :
    ∀ c ∈ w'.calls.rows, c.pc.beforeRewrite = true → w'.ledger.committer = some (.call c.id) := by
  intro c' hc' hpc
  obtain hc | ⟨moment, actorUserId, event, rfl, hruns, hstage⟩ | hstage | ⟨c, effect, pc, hc, hnext, rfl⟩ :=
    h.mem_calls hc'
  · exact hs.committer_keep h (hs.calls c' hc hpc)
  · cases haccepted : (w.runs.cancel w.runId moment event).1.isSome with
    | true =>
      obtain ⟨he, he'⟩ := ended_of_cancel haccepted (h.change hs.toSound).1 hruns
      rw [h.committer, he, he']
      rfl
    | false =>
      rw [hstage, haccepted] at hpc
      cases hpc
  · rw [hstage] at hpc
    cases hpc
  · refine hs.committer_keep h (hs.calls c hc ?_)
    cases hc₀ : c.pc with
    | placeholder | rewriting => rfl
    | requesting =>
      simp only [Call.next, hc₀, Option.some.injEq, Prod.mk.injEq] at hnext
      rw [← hnext.2] at hpc
      cases hpc
    | cancelling stage =>
      simp only [Call.next, hc₀, Option.some.injEq, Prod.mk.injEq] at hnext
      rw [← hnext.2] at hpc
      split at hpc <;> cases hpc
    | done => simp [Call.next, hc₀] at hnext

theorem ofCall_step (hok : transcriptFenced upper w action = true) (h : Stepped upper w action w') {id : Nat}
    (hc : w.ledger.committer = some (.call id)) (he : w.ended = true) : w'.ledger.writer = .call id ∨
      awaitsReply w'.reply = true ∧ ∃ c ∈ w'.calls.rows, c.id = id ∧ c.pc.beforeRewrite = true := by
  obtain ⟨hwriter, hreply⟩ | ⟨c, -, hcommitter, hw⟩ := hs.writer_after_end hok h he
  · rw [hwriter, hreply]
    obtain hold | ⟨hr, c, hmem, hid, hpc⟩ := hs.ofCall id hc
    · exact Or.inl hold
    obtain hstay | ⟨effect, pc, hnext, rfl⟩ := h.call_moves hmem
    · exact Or.inr ⟨hr, c, hstay, hid, hpc⟩
    cases hstage : c.pc with
    | placeholder =>
      simp only [Call.next, hstage, hr, if_true, Option.some.injEq, Prod.mk.injEq] at hnext
      exact Or.inr ⟨hr, _, Table.mem_put_self _ _, hid, by rw [← hnext.2]; rfl⟩
    | rewriting =>
      simp only [Call.next, hstage, Option.some.injEq, Prod.mk.injEq] at hnext
      obtain ⟨rfl, -⟩ := hnext
      exact Or.inl (hwriter.symm.trans (congrArg Author.call hid))
    | _ => simp [hstage, CallPc.beforeRewrite] at hpc
  · obtain rfl := Author.call.inj (Option.some.inj (hc.symm.trans hcommitter))
    exact Or.inl hw

theorem step (hok : transcriptFenced upper w action = true) (h : Stepped upper w action w') : Fenced w' := by
  refine { hs.toSound.step h with
    wrote := hs.wrote_step hok h, committed := hs.committer_step h, ofAttempt := ?_, ofCall := ?_,
    byWriter := ?_, calls := hs.calls_step h, onTime := ?_ }
  · intro claim hc
    obtain ⟨hold, he⟩ | ⟨he, he', hauthor⟩ := hs.committer_cases h hc
    · obtain ⟨hsame, -⟩ | ⟨c, -, hcall, -⟩ := hs.writer_after_end hok h he
      · exact hsame.trans (hs.ofAttempt claim hold)
      · cases hold.symm.trans hcall
    · obtain ⟨claim', hclaim, hw⟩ | ⟨id, hid, -⟩ := hs.writer_of_end hok h he he'
      · rw [hw, ← hclaim, hauthor]
      · cases hid.symm.trans hauthor
  · intro id hc
    obtain ⟨hold, he⟩ | ⟨he, he', hauthor⟩ := hs.committer_cases h hc
    · exact hs.ofCall_step hok h hold he
    · obtain ⟨claim, hclaim, -⟩ | ⟨id', hid, hr, hcall⟩ := hs.writer_of_end hok h he he'
      · cases hclaim.symm.trans hauthor
      · obtain rfl := Author.call.inj (hid.symm.trans hauthor)
        exact Or.inr ⟨hr, hcall⟩
  · intro hc
    obtain ⟨hold, -⟩ | ⟨he, he', hauthor⟩ := hs.committer_cases h hc
    · exact hs.byWriter hold
    · obtain ⟨claim, hclaim, -⟩ | ⟨id, hid, -⟩ := hs.writer_of_end hok h he he'
      · cases hclaim.symm.trans hauthor
      · cases hid.symm.trans hauthor
  · cases hl : w'.ledger.late with
    | false => rfl
    | true =>
      obtain hold | ⟨input, e, effect, pc, hact, he, hnext, hspeaks, hlost⟩ := h.late hl
      · exact absurd (hs.onTime.symm.trans hold) nofun
      · exact absurd (hlost.symm.trans (holds_of_speaks hok hact he hnext hspeaks)) nofun

end

end Fenced

theorem submitted_fenced {s : RunRepository} {new : SubmittedRun} (hw : WellFormed s)
    (hf : s.Fresh new.toNewRun) : Fenced (submitted s new) := by
  have hv := submit_view_self hf hw.toWellKeyed
  refine { submitted_sound hw hf with
    wrote := by simp [submitted], committed := ?_, ofAttempt := nofun, ofCall := nofun, byWriter := nofun,
    calls := by simp [submitted], onTime := rfl }
  rw [ended_eq hv]
  rfl

/-- Where executions speak only under their claim, end runs only after writing
the reply, and cancellations come only while it is pending: the reply of an ended
run is its ender's (a cancel call has it still to write), and no superseded
execution has spoken since. -/
theorem reply_of_committer {ops : List RunOp} {s : RunRepository}
    (h : Machine.exec RunOp.step {} ops = some s) {new : SubmittedRun} (hf : s.Fresh new.toNewRun)
    {actions : List Action} {w : World}
    (hok : Machine.Along (World.step upper) (fun w action => transcriptFenced upper w action = true)
      (submitted s new) actions)
    (hw : Machine.exec (World.step upper) (submitted s new) actions = some w) (hended : w.ended = true) :
    w.ledger.late = false ∧ ∃ author, w.ledger.committer = some author ∧
      (w.ledger.writer = author ∨ ∃ c ∈ w.calls.rows, author = .call c.id ∧ c.pc.beforeRewrite = true) := by
  have hs : Fenced w := Machine.invariant_along
    (fun _ _ _ hs hok hstep => Fenced.step hs hok (stepped hstep))
    (submitted_fenced (RunOp.exec_wellFormed h) hf) hok hw
  refine ⟨hs.onTime, ?_⟩
  obtain ⟨author, hauthor⟩ := isSome_iff_exists.mp (hs.committed.trans hended)
  refine ⟨author, hauthor, ?_⟩
  cases author with
  | submission => exact absurd hauthor hs.byWriter
  | attempt claim => exact Or.inl (hs.ofAttempt claim hauthor)
  | call id =>
    obtain hw | ⟨-, c, hc, rfl, hpc⟩ := hs.ofCall id hauthor
    · exact Or.inl hw
    · exact Or.inr ⟨c, hc, rfl, hpc⟩

/-- The agent has answered and the execution is about to write; the run is
cancelled and its reply rewritten, and then the execution writes. -/
def writtenAfterCancel : List Action :=
  [.claim "a" 60 0] ++ nextSteps firstClaim 8 ++
    [.execute firstClaim (.returns { status := .completed, finalResponse := "42" })] ++
    nextSteps firstClaim 12 ++ [.cancelRun 0 5 "u"] ++ List.replicate 4 (.proceed 0) ++
    nextSteps firstClaim 1

/-- The reply of the cancelled run then is the answer of an attempt that had lost it. -/
theorem superseded_write_after_cancel : ∃ w,
    Machine.exec (World.step id) (submitted {} (sampleRun 1)) writtenAfterCancel = some w ∧
    w.hasStatus .cancelled = true ∧ w.ledger.committer = some (.call 0) ∧
    w.ledger.writer = .attempt firstClaim ∧ w.ledger.late = true ∧
    (∀ c ∈ w.calls.rows, c.pc.beforeRewrite = false) ∧ ∃ part ∈ w.reply, part.type = .text := by
  have h : (Machine.exec (World.step id) (submitted {} (sampleRun 1)) writtenAfterCancel).any (fun w =>
      w.hasStatus .cancelled && (decide (w.ledger.committer = some (.call 0)) &&
        (decide (w.ledger.writer = .attempt firstClaim) && (w.ledger.late &&
          ((w.calls.rows.all fun c => !c.pc.beforeRewrite) && w.reply.any (·.type = .text)))))) = true := by
    decide
  obtain ⟨w, hw, h⟩ := (Option.any_eq_true _ _).mp h
  simp only [Bool.and_eq_true, decide_eq_true_eq, List.all_eq_true, Bool.not_eq_true', List.any_eq_true] at h
  exact ⟨w, hw, h⟩

theorem reply_of_committer_answered : ∃ w,
    Machine.exec (World.step id) (submitted {} (sampleRun 1)) answered = some w ∧ w.ended = true ∧
    w.ledger.late = false ∧ ∃ author, w.ledger.committer = some author ∧ w.ledger.writer = author := by
  have h : (Machine.exec (World.step id) (submitted {} (sampleRun 1)) answered).any (fun w =>
      w.ended && w.calls.rows.isEmpty) = true := by decide
  obtain ⟨w, hw, h⟩ := (Option.any_eq_true _ _).mp h
  obtain ⟨hended, hcalls⟩ := Bool.and_eq_true_iff.mp h
  have hempty : Machine.exec RunOp.step {} [] = some {} := rfl
  obtain ⟨hlate, author, hauthor, hwriter | ⟨c, hc, -⟩⟩ :=
    reply_of_committer hempty (by decide) (by decide) hw hended
  · exact ⟨w, hw, hended, hlate, author, hauthor, hwriter⟩
  · rw [List.isEmpty_iff.mp hcalls] at hc
    cases hc

end World
end SelericSwarm
