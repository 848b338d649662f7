import SelericSwarm.RunProgress

/-! Versions fence leases: each move of an attempt raises its version by one,
nothing else does, and a holder with an older version changes nothing. -/
open List Option

namespace SelericSwarm
open Keyed RunRepository

/-- A row before and after a call: a move ages it by one, and without a move its
status and its worker stay as well. -/
structure RunAttempt.Ages (moved : Bool) (a a' : RunAttempt) : Prop where
  runId : a'.runId = a.runId
  attemptNumber : a'.attemptNumber = a.attemptNumber
  retryable : a'.retryable = a.retryable
  version : a'.version = a.version + if moved then 1 else 0
  held : moved = false → a'.status = a.status ∧ a'.workerId = a.workerId

theorem RunAttempt.Ages.moved {a a' : RunAttempt} (hr : a'.runId = a.runId)
    (hn : a'.attemptNumber = a.attemptNumber) (ht : a'.retryable = a.retryable)
    (hv : a'.version = a.version + 1) : a.Ages true a' := ⟨hr, hn, ht, hv, nofun⟩

theorem RunAttempt.Ages.still (a : RunAttempt) : a.Ages false a :=
  ⟨rfl, rfl, rfl, rfl, fun _ => ⟨rfl, rfl⟩⟩

/-- The stored attempts stay stored, and age where marked. -/
def Aged (moved : String → Bool) (t t' : Table RunAttempt.id) : Prop :=
  ∀ k a, t.get? k = some a → ∃ a', t'.get? k = some a' ∧ a.Ages (moved k) a'

namespace Aged
variable {t t' : Table RunAttempt.id} {moved : String → Bool}

theorem same (h : ∀ k, moved k = false) : Aged moved t t := by
  intro k a ha
  exact ⟨a, ha, h k ▸ .still a⟩

theorem put {a b : RunAttempt} {m : Bool} (hb : t.get? b.id = some b) (hid : a.id = b.id)
    (ha : b.Ages m a) (hm : ∀ k, moved k = (m && decide (k = b.id))) :
    Aged moved t (t.put a) := by
  intro k c hc
  rw [Table.get?_put, hm k]
  by_cases hk : k = b.id
  · subst hk
    obtain rfl := Option.some.inj (hb.symm.trans hc)
    exact ⟨a, by rw [if_pos hid], by simpa using ha⟩
  · rw [if_neg (fun he => hk (he.symm.trans hid))]
    exact ⟨c, hc, by simpa [hk] using RunAttempt.Ages.still c⟩

theorem setdefault (h : Aged moved t t') (a : RunAttempt) : Aged moved t (t'.setdefault a) := by
  intro k b hb
  obtain ⟨b', hb', hages⟩ := h k b hb
  exact ⟨b', Table.get?_setdefault_of_some hb', hages⟩

end Aged

def Recovered.acted : Recovered → Bool
  | .dropped attempt => attempt.isSome
  | .moved transition => transition ≠ .stale
  | _ => false

namespace RunOp

/-- The call reports a claim, an end, a failed transition or a cancellation of the attempt. -/
def moves (attemptId : String) (s : RunRepository) : RunOp → Bool
  | .claim runId workerId lease moment =>
    (s.claim runId workerId lease moment).1.any (·.id = attemptId)
  | .finalizeAttempt id workerId version status event moment errorCode errorMessage =>
    (s.finalizeAttempt id workerId version status event moment errorCode errorMessage).1.any
      fun committed => committed.2.1.id = attemptId
  | .transitionFailedAttempt id version retryDelay now errorCode errorMessage workerId before =>
    (s.transitionFailedAttempt id version retryDelay now errorCode errorMessage workerId before).1 ≠
      .stale && id = attemptId
  | .recover service attempt moment draw =>
    (service.recover s attempt moment draw).1.acted && attempt.id = attemptId
  | .cancel runId moment event =>
    (s.cancel runId moment event).1.isSome &&
      (s.attempts.get? attemptId).any fun a => a.runId = runId && a.status.live
  | _ => false

variable {s : RunRepository}

theorem afterFailure_aged {a : RunAttempt} (ha : s.attempts.get? a.id = some a) (run : Run)
    (retryDelay : Duration) (now : Moment) (errorCode errorMessage : String) :
    (s.afterFailure a run retryDelay now errorCode errorMessage).1 ≠ .stale ∧
    Aged (fun k => k = a.id) s.attempts
      (s.afterFailure a run retryDelay now errorCode errorMessage).2.attempts := by
  unfold afterFailure
  dsimp only
  split
  · exact ⟨nofun, Aged.put ha rfl (.moved rfl rfl rfl rfl) fun _ => rfl⟩
  split
  · exact ⟨nofun, Aged.put ha rfl (.moved rfl rfl rfl rfl) fun _ => rfl⟩
  · have hput : Aged (fun k => k = a.id) s.attempts
        (s.attempts.put (a.settled .failed (some errorCode) (some errorMessage) now)) :=
      Aged.put ha rfl (.moved rfl rfl rfl rfl) fun _ => rfl
    exact ⟨nofun, hput.setdefault _⟩

theorem transition_aged (attemptId : String) (version : Nat) (retryDelay : Duration) (now : Moment)
    (errorCode errorMessage : String) (workerId : Option String) (before : Option Moment) :
    Aged (fun k => (s.transitionFailedAttempt attemptId version retryDelay now errorCode errorMessage
        workerId before).1 ≠ .stale && attemptId = k) s.attempts
      (s.transitionFailedAttempt attemptId version retryDelay now errorCode errorMessage workerId
        before).2.attempts := by
  obtain he | ⟨a, run, ha, -, -, -, -, -, he⟩ := s.transitionFailedAttempt_cases attemptId version
    retryDelay now errorCode errorMessage workerId before
  · rw [he]
    exact .same (by simp)
  · obtain rfl : a.id = attemptId := Table.key_of_get? ha
    have haged := afterFailure_aged ha run retryDelay now errorCode errorMessage
    rw [he]
    simpa [haged.1, eq_comm] using haged.2

theorem apply_aged (s : RunRepository) (op : RunOp) :
    Aged (fun k => op.moves k s) s.attempts (op.apply s).attempts := by
  cases op with
  | submit new => exact (Aged.same (fun _ => rfl)).setdefault _
  | start runId moment =>
    obtain he | ⟨run, -, -, he⟩ := s.compareAndSetStatus_cases runId [.queued] .running moment
    · simp only [apply, he]
      exact .same fun _ => rfl
    · simp only [apply, he]
      exact .same fun _ => rfl
  | appendEvent event =>
    have he : (s.appendEvent event).2.attempts = s.attempts := by
      unfold RunRepository.appendEvent
      dsimp only
      split
      · rfl
      · split <;> rfl
    simp only [apply, he]
    exact .same fun _ => rfl
  | claim runId workerId lease moment =>
    obtain he | ⟨a, ha, -, -, he⟩ := s.claim_cases runId workerId lease moment
    · simp only [apply, moves, he]
      exact .same fun _ => rfl
    · simp only [apply, moves, he]
      exact .put ha rfl (.moved rfl rfl rfl rfl) (by simp [RunAttempt.claimedBy, eq_comm])
  | heartbeat attemptId workerId lease version moment =>
    obtain he | ⟨a, ha, -, -, -, he⟩ := s.heartbeat_cases attemptId workerId lease version moment
    · simp only [apply, moves, he]
      exact .same fun _ => rfl
    · obtain rfl : a.id = attemptId := Table.key_of_get? ha
      simp only [apply, moves, he]
      have hages : a.Ages false (a.renewed lease moment) := ⟨rfl, rfl, rfl, rfl, fun _ => ⟨rfl, rfl⟩⟩
      exact .put ha rfl hages fun _ => rfl
  | finalizeAttempt attemptId workerId version status event moment errorCode errorMessage =>
    obtain he | ⟨a, run, final, events, ha, -, -, -, -, -, -, -, -, he⟩ := s.finalizeAttempt_cases
      attemptId workerId version status event moment errorCode errorMessage
    · simp only [apply, moves, he]
      exact .same fun _ => rfl
    · obtain rfl : a.id = attemptId := Table.key_of_get? ha
      simp only [apply, moves, he]
      exact .put ha rfl (.moved rfl rfl rfl rfl) (by simp [RunAttempt.settled, eq_comm])
  | transitionFailedAttempt => exact transition_aged _ _ _ _ _ _ _ _
  | recover service attempt moment draw =>
    obtain he | he | ⟨run, dropped, -, -, hd, he⟩ | ⟨moved, hm, he⟩ :=
      s.recover_cases service attempt moment draw
    · simp only [apply, moves, he]
      exact .same (by simp [Recovered.acted])
    · simp only [apply, moves, he]
      exact .same (by simp [Recovered.acted])
    · simp only [apply, moves, he]
      obtain hc | ⟨a, b, ha, -, -, hb, hc⟩ := s.compareAndSetAttempt_cases attempt.id .running .cancelled
        none (some attempt.version) (some moment) moment (some "CANCELLED") none
      · rw [hd, hc]
        exact .same (by simp [Recovered.acted])
      · have hid : a.id = attempt.id := Table.key_of_get? ha
        rw [← hid] at ha
        rw [hd, hc, ← hid]
        subst hb
        refine .put ha rfl (.moved rfl rfl rfl rfl) fun k => ?_
        by_cases hk : a.id = k
        · simp [Recovered.acted, hk]
        · simp [Recovered.acted, hk, Ne.symm hk]
    · simp only [apply, moves, he, Recovered.acted, hm]
      exact transition_aged _ _ _ _ _ _ _ _
  | cancel runId moment event =>
    obtain ⟨he, -⟩ | ⟨run, -, -, he⟩ := s.cancel_cases runId moment event
    · simp only [apply, moves, he]
      exact .same fun _ => rfl
    · simp only [apply, moves, he]
      intro k a ha
      refine ⟨cancelAttempt runId moment a, by rw [Table.get?_mapRows, ha]; rfl, ?_⟩
      by_cases hc : a.runId = runId ∧ a.status.live = true
      · have hages : a.Ages true (a.cancelledAt moment) := .moved rfl rfl rfl rfl
        simp only [cancelAttempt, if_pos hc]
        simpa [ha, hc] using hages
      · have hstill : (decide (a.runId = runId) && a.status.live) = false := by simpa using hc
        simp only [cancelAttempt, if_neg hc]
        simpa [ha, hstill] using RunAttempt.Ages.still a

theorem step_apply {s s' : RunRepository} {op : RunOp} (h : step s op = some s') :
    op.Admissible s ∧ op.apply s = s' := by
  simpa only [step, ite_none_right_eq_some, Option.some.injEq] using h

end RunOp

/-- A row and any later state of it. While the version stands, so do the status
and the worker. -/
structure RunAttempt.Later (a a' : RunAttempt) : Prop where
  runId : a'.runId = a.runId
  attemptNumber : a'.attemptNumber = a.attemptNumber
  retryable : a'.retryable = a.retryable
  version : a.version ≤ a'.version
  held : a'.version = a.version → a'.status = a.status ∧ a'.workerId = a.workerId

namespace RunAttempt.Later
variable {a b c : RunAttempt}

theorem refl (a : RunAttempt) : a.Later a := ⟨rfl, rfl, rfl, Nat.le_refl _, fun _ => ⟨rfl, rfl⟩⟩

theorem of_ages {moved : Bool} (h : a.Ages moved b) : a.Later b := by
  have hv := h.version
  refine ⟨h.runId, h.attemptNumber, h.retryable, by omega, fun he => h.held ?_⟩
  cases moved with
  | false => rfl
  | true =>
    rw [if_pos rfl] at hv
    omega

theorem trans (h : a.Later b) (h' : b.Later c) : a.Later c := by
  refine ⟨h'.runId.trans h.runId, h'.attemptNumber.trans h.attemptNumber,
    h'.retryable.trans h.retryable, h.version.trans h'.version, fun he => ?_⟩
  have hle := h.version
  have hle' := h'.version
  obtain ⟨hst, hw⟩ := h.held (by omega)
  obtain ⟨hst', hw'⟩ := h'.held (by omega)
  exact ⟨hst'.trans hst, hw'.trans hw⟩

end RunAttempt.Later

namespace RunOp

theorem step_later {s s' : RunRepository} {op : RunOp} (h : step s op = some s') {k : String}
    {a : RunAttempt} (ha : s.attempts.get? k = some a) :
    ∃ a', s'.attempts.get? k = some a' ∧ a.Later a' := by
  obtain ⟨a', ha', hages⟩ := apply_aged s op k a ha
  rw [(step_apply h).2] at ha'
  exact ⟨a', ha', .of_ages hages⟩

theorem exec_later {k : String} (later : List RunOp) :
    ∀ {s s' : RunRepository} {a : RunAttempt}, Machine.exec step s later = some s' →
      s.attempts.get? k = some a → ∃ a', s'.attempts.get? k = some a' ∧ a.Later a' := by
  induction later with
  | nil =>
    intro s s' a h ha
    obtain rfl := Option.some.inj h
    exact ⟨a, ha, .refl a⟩
  | cons op later ih =>
    intro s s' a h ha
    obtain ⟨t, hstep, h⟩ := Machine.exec_cons h
    obtain ⟨b, hb, hab⟩ := step_later hstep ha
    obtain ⟨a', ha', hba⟩ := ih h hb
    exact ⟨a', ha', hab.trans hba⟩

theorem exec_version {attemptId : String} (later : List RunOp) :
    ∀ {s s' : RunRepository} {a : RunAttempt}, Machine.exec step s later = some s' →
      s.attempts.get? attemptId = some a → ∃ a', s'.attempts.get? attemptId = some a' ∧
        a'.version = a.version + Machine.occurrences step (moves attemptId) s later := by
  induction later with
  | nil =>
    intro s s' a h ha
    obtain rfl := Option.some.inj h
    exact ⟨a, ha, rfl⟩
  | cons op later ih =>
    intro s s' a h ha
    obtain ⟨t, hstep, h⟩ := Machine.exec_cons h
    obtain ⟨b, hb, hages⟩ := apply_aged s op attemptId a ha
    rw [(step_apply hstep).2] at hb
    obtain ⟨a', ha', hv'⟩ := ih h hb
    refine ⟨a', ha', ?_⟩
    have hv : b.version = a.version + if moves attemptId s op then 1 else 0 := hages.version
    simp only [Machine.occurrences, hstep, elim_some]
    omega

/-- A whole call of `recover_expired` is the turns of its loop, one after another. -/
theorem recoverExpired_exec (service : RunRecoveryService) (s : RunRepository) (moment : Moment)
    (limit : Nat) (draw : RunAttempt → Duration) :
    Machine.exec step s ((s.listRecoverable moment limit).map fun a =>
      .recover service a moment (draw a)) = some (service.recoverExpired s moment limit draw).2 := by
  have hall : ∀ (listed : List RunAttempt) (s : RunRepository) (result : RecoveryResult),
      (∀ a ∈ listed, ∃ b, s.attempts.get? a.id = some b ∧ b.runId = a.runId) →
      Machine.exec step s (listed.map fun a => .recover service a moment (draw a)) =
        some (listed.foldl (fun counted attempt =>
          let recovered := service.recover counted.2 attempt moment (draw attempt)
          (counted.1.count recovered.1 recovered.2 attempt.runId, recovered.2)) (result, s)).2 := by
    intro listed
    induction listed with
    | nil =>
      intro s result _
      rfl
    | cons a listed ih =>
      intro s result hknown
      obtain ⟨b, hb, hr⟩ := hknown a (by simp)
      have hstep : step s (.recover service a moment (draw a)) =
          some (service.recover s a moment (draw a)).2 := by
        rw [step, if_pos]
        · rfl
        · simp [Admissible, hb, hr]
      simp only [map_cons, Machine.exec, hstep, bind_some, foldl_cons]
      refine ih _ _ fun c hc => ?_
      obtain ⟨d, hd, hdr⟩ := hknown c (by simp [hc])
      obtain ⟨d', hd', hages⟩ := apply_aged s (.recover service a moment (draw a)) c.id d hd
      exact ⟨d', hd', hages.runId.trans hdr⟩
  refine hall _ s {} fun a ha => ?_
  have hm : a ∈ s.attempts.rows := by
    have := mem_of_mem_take ha
    rw [(perm_insertionSort _ _).mem_iff] at this
    exact (mem_filter.mp this).1
  exact ⟨a, Table.get?_of_mem hm, rfl⟩

end RunOp

namespace RunRepository

/-- The claim that returned the attempt with this version still stands. -/
def holds (s : RunRepository) (attemptId : String) (version : Nat) : Bool :=
  (s.attempts.get? attemptId).any fun a => a.status = .running && a.version = version

theorem holds_iff {s : RunRepository} {attemptId : String} {version : Nat} :
    s.holds attemptId version = true ↔
      ∃ a, s.attempts.get? attemptId = some a ∧ a.status = .running ∧ a.version = version := by
  simp [holds, Option.any_eq_true]

end RunRepository

/-- A live lease: running, with an expiry still ahead. -/
def RunAttempt.leasedAt (attempt : RunAttempt) (now : Moment) : Prop :=
  attempt.status = .running ∧ ∃ t ∈ attempt.leaseExpiresAt, now < t

/-- One live lease a run; versions count the moves of an attempt and nothing
else; and once its attempt has moved on, a holder's calls fail and leave the
whole repository as it was. -/
theorem leases_fenced {ops : List RunOp} {s : RunRepository}
    (h : Machine.exec RunOp.step {} ops = some s) :
    (∀ now, ∀ a ∈ s.attempts.rows, ∀ b ∈ s.attempts.rows, a.runId = b.runId →
      a.leasedAt now → b.leasedAt now → (a.id, a.workerId, a.version) = (b.id, b.workerId, b.version)) ∧
    (∀ op s', RunOp.step s op = some s' → ∀ a ∈ s.attempts.rows, ∃ a' ∈ s'.attempts.rows,
      a'.id = a.id ∧ a'.version = a.version + if op.moves a.id s then 1 else 0) ∧
    ∀ runId workerId lease moment held, (s.claim runId workerId lease moment).1 = some held →
      ∀ later s', Machine.exec RunOp.step (s.claim runId workerId lease moment).2 later = some s' →
      0 < Machine.occurrences RunOp.step (RunOp.moves held.id)
        (s.claim runId workerId lease moment).2 later →
      (∀ worker lease now, s'.heartbeat held.id worker lease (some held.version) now = (false, s')) ∧
      (∀ worker status event now errorCode errorMessage,
        s'.finalizeAttempt held.id worker held.version status event now errorCode errorMessage =
          (none, s')) ∧
      ∀ retryDelay now errorCode errorMessage worker before,
        s'.transitionFailedAttempt held.id held.version retryDelay now errorCode errorMessage worker
          before = (.stale, s') := by
  have hw := RunOp.exec_wellFormed h
  refine ⟨?_, ?_, ?_⟩
  · intro now a ha b hb hr hla hlb
    rw [hw.live_unique ha hb hr (by rw [hla.1]; rfl) (by rw [hlb.1]; rfl)]
  · intro op s' hstep a ha
    obtain ⟨a', ha', hages⟩ := RunOp.apply_aged s op a.id a (Table.get?_of_mem ha)
    rw [(RunOp.step_apply hstep).2] at ha'
    exact ⟨a', Table.mem_of_get? ha', Table.key_of_get? ha', hages.version⟩
  · intro runId workerId lease moment held hclaim later s' hlater hmoved
    obtain he | ⟨a, ha, -, -, he⟩ := s.claim_cases runId workerId lease moment
    · rw [he] at hclaim
      cases hclaim
    · rw [he] at hclaim hlater hmoved
      obtain rfl := Option.some.inj hclaim
      have hg : (s.attempts.put (a.claimedBy workerId lease moment)).get?
          (a.claimedBy workerId lease moment).id = some (a.claimedBy workerId lease moment) :=
        Table.get?_put_self _ _
      obtain ⟨b, hb, hv⟩ := RunOp.exec_version later hlater hg
      -- the stored version has moved past the one the holder knows
      have hstale : b.version ≠ (a.claimedBy workerId lease moment).version := by omega
      refine ⟨?_, ?_, ?_⟩
      · intro worker lease now
        obtain hf | ⟨c, hc, -, -, hver, -⟩ := s'.heartbeat_cases _ worker lease (some _) now
        · exact hf
        · obtain rfl := Option.some.inj (hb.symm.trans hc)
          exact absurd (hver _ rfl) hstale
      · intro worker status event now errorCode errorMessage
        obtain hf | ⟨c, run, final, events, hc, -, -, hver, -⟩ := s'.finalizeAttempt_cases _ worker _ status
          event now errorCode errorMessage
        · exact hf
        · obtain rfl := Option.some.inj (hb.symm.trans hc)
          exact absurd hver hstale
      · intro retryDelay now errorCode errorMessage worker before
        obtain hf | ⟨c, run, hc, -, hver, -⟩ := s'.transitionFailedAttempt_cases _ _ retryDelay now
          errorCode errorMessage worker before
        · exact hf
        · obtain rfl := Option.some.inj (hb.symm.trans hc)
          exact absurd hver hstale

theorem leases_fenced_lostOnce : ∃ (s : RunRepository) (held : RunAttempt) (s' : RunRepository),
    (s.claim (newId "run" .nil) "a" 60 0).1 = some held ∧
    Machine.exec RunOp.step (s.claim (newId "run" .nil) "a" 60 0).2
      [.recover {} held 60 0, .claim (newId "run" .nil) "b" 60 10000000] = some s' ∧
    ∀ worker lease now, s'.heartbeat held.id worker lease (some held.version) now = (false, s') := by
  have h : (Machine.exec RunOp.step {} (lostOnce.take 1)).any (fun s =>
      (s.claim (newId "run" .nil) "a" 60 0).1.any fun held =>
        (Machine.exec RunOp.step (s.claim (newId "run" .nil) "a" 60 0).2
          [.recover {} held 60 0, .claim (newId "run" .nil) "b" 60 10000000]).isSome &&
        0 < Machine.occurrences RunOp.step (RunOp.moves held.id)
          (s.claim (newId "run" .nil) "a" 60 0).2
          [.recover {} held 60 0, .claim (newId "run" .nil) "b" 60 10000000]) = true := by decide
  obtain ⟨s, hs, h⟩ := (Option.any_eq_true _ _).mp h
  obtain ⟨held, hheld, h⟩ := (Option.any_eq_true _ _).mp h
  obtain ⟨hrun, hmoved⟩ := Bool.and_eq_true_iff.mp h
  obtain ⟨s', hs'⟩ := isSome_iff_exists.mp hrun
  exact ⟨s, held, s', hheld, hs', ((leases_fenced hs).2.2 _ _ _ _ held hheld _ s' hs'
    (of_decide_eq_true hmoved)).1⟩

end SelericSwarm
