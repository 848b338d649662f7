import SelericSwarm.RunOperations

/-! Attempt numbering, the one live attempt of an unfinished run, and why
recovery always finds it again. -/
open List Option

namespace SelericSwarm
open Keyed RunRepository

variable {past : List RunAttempt} {current : RunAttempt}

theorem Paired.live_iff {v : RunView} (h : Paired v past current) : current.status.live = !v.run.status.terminal := by
  rw [h.paired, RunStatus.recoverable_eq _ h.entered]

theorem Paired.numbers {v : RunView} (h : Paired v past current) :
    v.attempts.map (·.attemptNumber) = List.range' 1 (past.length + 1) := by
  rw [h.attempts, map_append, h.numbered, range'_1_concat]
  simp [h.number, Nat.add_comm]

theorem Paired.eq_current {v : RunView} {a : RunAttempt} (h : Paired v past current) (ha : a ∈ v.attempts)
    (hl : a.status.live = true) : a = current := by
  rw [h.attempts] at ha
  obtain ha | ha := mem_append.mp ha
  · rw [h.settled a ha] at hl
    cases hl
  · exact mem_singleton.mp ha

theorem WellFormed.live_unique {s : RunRepository} (h : WellFormed s) {a b : RunAttempt}
    (ha : a ∈ s.attempts.rows) (hb : b ∈ s.attempts.rows) (hr : a.runId = b.runId)
    (hal : a.status.live = true) (hbl : b.status.live = true) : a = b := by
  obtain ⟨v, past, hv, hp⟩ := h.current hb hbl
  refine hp.eq_current ?_ hal
  rw [← (view_eq hv).2.1]
  exact mem_attemptsOf.mpr ⟨ha, hr⟩

namespace RunRepository
variable {s : RunRepository}

theorem mem_listRecoverable {moment : Moment} {limit : Nat} (hl : s.attempts.rows.length ≤ limit)
    {a : RunAttempt} (ha : a ∈ s.attempts.rows) (hr : s.recoverableAt moment a = true) :
    a ∈ s.listRecoverable moment limit := by
  have hlen : ((s.attempts.rows.filter (s.recoverableAt moment)).insertionSort
      fun a b => a.startedAt ≤ b.startedAt).length ≤ max 1 limit := by
    rw [(perm_insertionSort _ _).length_eq]
    exact (length_filter_le _ _).trans (hl.trans (le_max_right _ _))
  rw [listRecoverable, take_of_length_le hlen, (perm_insertionSort _ _).mem_iff]
  exact mem_filter.mpr ⟨ha, hr⟩

theorem recoverableAt_current {runId : String} {v : RunView} (hv : s.view runId = some v)
    {past : List RunAttempt} {current : RunAttempt} (hp : Paired v past current)
    (hl : current.status.live = true) {now : Moment} (hretry : ∀ t ∈ v.run.nextRetryAt, t ≤ now)
    (hlease : ∀ t ∈ current.leaseExpiresAt, t ≤ now) : s.recoverableAt now current = true := by
  have hrun : s.items.get? current.runId = some v.run := by
    rw [view_attempt_run hv current (by simp [hp.attempts]), view_run_id hv]
    exact (view_eq hv).1
  have hrec : v.run.status.recoverable = true := hp.paired ▸ hl
  simp only [recoverableAt, hrun, any_some, hrec, Bool.true_and, Bool.and_eq_true]
  constructor
  · rw [Option.all_eq_true]
    intro t ht
    simpa using hretry t ht
  · cases hst : current.status with
    | retryable => rfl
    | running =>
      obtain ⟨t, ht⟩ := isSome_iff_exists.mp (hp.leased hst)
      simpa [ht] using hlease t ht
    | completed => rw [hst] at hl; cases hl
    | failed => rw [hst] at hl; cases hl
    | cancelled => rw [hst] at hl; cases hl

end RunRepository

/-- In every reachable repository the attempts of a run are numbered `1..n`
within its bound; an unfinished run has one live attempt, its newest, which
recovery will list; a finished run has none. -/
theorem run_attempts_paired {ops : List RunOp} {s : RunRepository} {runId : String} {run : Run}
    (h : Machine.exec RunOp.step {} ops = some s) (hrun : s.get runId = some run) :
    ∃ n, n ≤ (run.maxAttempts : ℕ) ∧
      (s.attemptsOf runId).map (·.attemptNumber) = List.range' 1 n ∧
      (run.status = .queued ∨ run.status = .running →
        ∃ a ∈ s.attemptsOf runId, a.status.live = true ∧ a.attemptNumber = n ∧
          ∀ b ∈ s.attemptsOf runId, b.status.live = true → b = a) ∧
      (run.status.terminal = true → ∀ a ∈ s.attemptsOf runId, a.status.live = false) ∧
      (run.status.terminal = false → ∃ a ∈ s.attemptsOf runId, a.status.live = true ∧
        ∀ t, ∃ now ≥ t, ∀ limit ≥ s.attempts.rows.length, a ∈ s.listRecoverable now limit) := by
  have hw := RunOp.exec_wellFormed h
  have hv := view_of_get hrun
  obtain ⟨past, current, hp⟩ := hw.shape runId _ hv
  have hall : s.attemptsOf runId = past ++ [current] := hp.attempts
  have hcur : current ∈ s.attemptsOf runId := by simp [hall]
  refine ⟨past.length + 1, hp.bounded, hp.numbers, ?_, ?_, ?_⟩
  · intro hopen
    have hl : current.status.live = true := by
      rw [hp.paired]
      obtain hq | hq := hopen <;> simp only [hq] <;> rfl
    exact ⟨current, hcur, hl, hp.number, fun b hb hbl => hp.eq_current hb hbl⟩
  · intro ht a ha
    by_contra hl
    have := hp.eq_current ha (by simpa using hl)
    rw [this, hp.live_iff, ht] at hl
    exact hl rfl
  · intro hopen
    have hl : current.status.live = true := by rw [hp.live_iff, hopen]; rfl
    refine ⟨current, hcur, hl, fun t => ?_⟩
    -- late enough for the caller, the back-off and the lease
    refine ⟨max t (max (run.nextRetryAt.getD t) (current.leaseExpiresAt.getD t)), le_max_left _ _, ?_⟩
    intro limit hlimit
    refine mem_listRecoverable hlimit (mem_attemptsOf.mp hcur).1
      (recoverableAt_current hv hp hl ?_ ?_)
    · intro u hu
      rw [mem_def.mp hu]
      exact (le_max_left _ _).trans (le_max_right _ _)
    · intro u hu
      rw [mem_def.mp hu]
      exact (le_max_right _ _).trans (le_max_right _ _)

/-- A run whose first attempt is claimed, started and lost, and then listed and moved on. -/
def lostOnce : List RunOp :=
  let new : NewRun := {
    runHex := .nil, attemptHex := .nil, threadId := "t", workspaceId := "w",
    requestedByUserId := "u", missionId := none, maxAttempts := ⟨3, three_attempts⟩, startedAt := 0 }
  [.submit new, .claim new.run.id "a" 60 0, .start new.run.id 0,
    .recover {} { new.attempt.claimedBy "a" 60 0 with } 60 0, .claim new.run.id "b" 60 10000000]

theorem run_attempts_paired_lostOnce : ∃ s run,
    Machine.exec RunOp.step {} lostOnce = some s ∧ s.get (newId "run" .nil) = some run ∧
    (s.attemptsOf (newId "run" .nil)).length = 2 ∧
    ∃ a ∈ s.attemptsOf (newId "run" .nil), a.status.live = true ∧
      ∀ t, ∃ now ≥ t, ∀ limit ≥ s.attempts.rows.length, a ∈ s.listRecoverable now limit := by
  have h : (Machine.exec RunOp.step {} lostOnce).any (fun s =>
      (s.attemptsOf (newId "run" .nil)).length = 2 &&
        (s.get (newId "run" .nil)).any fun run => !run.status.terminal) = true := by decide
  obtain ⟨s, hs, h⟩ := (Option.any_eq_true _ _).mp h
  obtain ⟨hlen, hrun⟩ := Bool.and_eq_true_iff.mp h
  obtain ⟨run, hr, hopen⟩ := (Option.any_eq_true _ _).mp hrun
  obtain ⟨n, -, -, -, -, hlive⟩ := run_attempts_paired hs hr
  exact ⟨s, run, hs, hr, of_decide_eq_true hlen, hlive (by simpa using hopen)⟩

end SelericSwarm
