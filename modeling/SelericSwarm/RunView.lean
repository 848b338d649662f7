import SelericSwarm.RunOutcomes

/-! What one run looks like inside the repository, and everything a repository
method can do to it. Later results use `Change` and never unfold a method. -/
open List

namespace SelericSwarm
open Keyed

structure RunView where
  run : Run
  attempts : List RunAttempt
  events : List ActivityEvent

namespace RunRepository

def view (s : RunRepository) (runId : String) : Option RunView :=
  (s.items.get? runId).map fun run => ⟨run, s.attemptsOf runId, s.eventsOf runId⟩

end RunRepository

/-- The run's attempts, the last of which is the current one: numbered without
gaps, all earlier ones settled, the current one live exactly while the run is. -/
structure Paired (v : RunView) (past : List RunAttempt) (current : RunAttempt) : Prop where
  attempts : v.attempts = past ++ [current]
  numbered : past.map (·.attemptNumber) = List.range' 1 past.length
  number : current.attemptNumber = past.length + 1
  bounded : past.length + 1 ≤ v.run.maxAttempts
  settled : ∀ a ∈ past, a.status.live = false
  paired : current.status.live = v.run.status.recoverable
  entered : v.run.status ≠ .waiting
  leased : current.status = .running → current.leaseExpiresAt.isSome

def Shape (v : RunView) : Prop := ∃ past current, Paired v past current

namespace RunStatus

theorem recoverable_eq (status : RunStatus) (h : status ≠ .waiting) :
    status.recoverable = !status.terminal := by
  cases status <;> first | rfl | exact absurd rfl h

end RunStatus

theorem RunAttempt.live_of_claimable {a : RunAttempt} {moment : Moment}
    (h : a.claimable moment = true) : a.status.live = true := by
  unfold claimable at h
  cases hst : a.status <;> simp_all [RunAttemptStatus.live]

theorem Shape.current_of_live {v : RunView} (h : Shape v) {a : RunAttempt} (ha : a ∈ v.attempts)
    (hl : a.status.live = true) : ∃ past, Paired v past a := by
  obtain ⟨past, current, hp⟩ := h
  rw [hp.attempts] at ha
  obtain ha | ha := mem_append.mp ha
  · rw [hp.settled a ha] at hl
    cases hl
  · obtain rfl := mem_singleton.mp ha
    exact ⟨past, hp⟩

/-- How a terminal event enters the event list: appended under a new id, or
represented by an event that is already there. -/
inductive Announced (old : List ActivityEvent) (event : ActivityEvent) : List ActivityEvent → Prop where
  | fresh (stored : ActivityEvent) (new : ∀ item ∈ old, item.id ≠ event.id) (id : stored.id = event.id)
      (type : stored.eventType = event.eventType)
      (next : stored.sequence = RunRepository.lastSequence old + 1) :
      Announced old event (old ++ [stored])
  | reused (item : ActivityEvent) (mem : item ∈ old) (same : item.id = event.id ∨
      (event.eventType = "run.cancelled" ∧ item.eventType = "run.cancelled")) :
      Announced old event old

/-- What a call can do to a run: to its current attempt as it found it, or with
an event as the caller passed it. -/
inductive Deed where
  | claimed (attempt : RunAttempt)
  | renewed (attempt : RunAttempt)
  | started
  | settled (attempt : RunAttempt) (status : RunStatus) (event : ActivityEvent)
  | retried (attempt : RunAttempt)
  | cancelled (event : Option ActivityEvent)
  | appended (event : ActivityEvent)

/-- One call's effect on one run; `Does` holds of the deeds the call can do. -/
inductive Change (Does : Deed → Prop) (v : RunView) : RunView → Prop where
  | same : Change Does v v
  | claimed {past : List RunAttempt} {current : RunAttempt} (workerId : String) (lease : Duration)
      (moment : Moment) (attempts : v.attempts = past ++ [current]) (live : current.status.live = true)
      (does : Does (.claimed current)) :
      Change Does v { v with attempts := past ++ [current.claimedBy workerId lease moment] }
  | renewed {past : List RunAttempt} {current : RunAttempt} (lease : Duration) (moment : Moment)
      (attempts : v.attempts = past ++ [current]) (running : current.status = .running)
      (does : Does (.renewed current)) :
      Change Does v { v with attempts := past ++ [current.renewed lease moment] }
  | started (moment : Moment) (queued : v.run.status = .queued) (does : Does .started) :
      Change Does v { v with run := v.run.withStatus .running moment }
  | settled {past : List RunAttempt} {current : RunAttempt} {events : List ActivityEvent}
      (status : RunStatus) (event : ActivityEvent) (errorCode errorMessage : Option String)
      (moment : Moment) (attempts : v.attempts = past ++ [current]) (running : current.status = .running)
      (unsettled : v.run.status.terminal = false) (terminal : status.terminal = true)
      (type : event.eventType = status.eventType) (does : Does (.settled current status event))
      (announced : Announced v.events event events) :
      Change Does v ⟨v.run.settled status moment,
        past ++ [current.settled status.attemptStatus errorCode errorMessage moment], events⟩
  | retried {past : List RunAttempt} {current : RunAttempt} (errorCode errorMessage : Option String)
      (retryDelay : Duration) (now : Moment) (attempts : v.attempts = past ++ [current])
      (running : current.status = .running) (unsettled : v.run.status.terminal = false)
      (left : RunRepository.exhausted v.run current = false) (does : Does (.retried current)) :
      Change Does v ⟨v.run.requeued (current.attemptNumber + 1) retryDelay now,
        past ++ [current.settled .failed errorCode errorMessage now] ++ [current.successor v.run.id now],
        v.events⟩
  | cancelled {events : List ActivityEvent} (moment : Moment) (event : Option ActivityEvent)
      (unsettled : v.run.status.terminal = false)
      (does : Does (.cancelled event))
      (announced : event.elim (events = v.events) (Announced v.events · events)) :
      Change Does v ⟨v.run.cancelledAt moment,
        v.attempts.map (RunRepository.cancelAttempt v.run.id moment), events⟩
  | appended (event : ActivityEvent) (new : ∀ item ∈ v.events, item.id ≠ event.id)
      (later : RunRepository.lastSequence v.events < event.sequence) (does : Does (.appended event)) :
      Change Does v { v with events := v.events ++ [event] }

theorem Change.mono {Does Does' : Deed → Prop} {v v' : RunView} (h : Change Does v v')
    (hd : ∀ deed, Does deed → Does' deed) : Change Does' v v' := by
  cases h with
  | same => exact .same
  | claimed workerId lease moment attempts live does =>
    exact .claimed workerId lease moment attempts live (hd _ does)
  | renewed lease moment attempts running does => exact .renewed lease moment attempts running (hd _ does)
  | started moment queued does => exact .started moment queued (hd _ does)
  | settled status event errorCode errorMessage moment attempts running unsettled terminal type does
      announced =>
    exact .settled status event errorCode errorMessage moment attempts running unsettled terminal type
      (hd _ does) announced
  | retried errorCode errorMessage retryDelay now attempts running unsettled left does =>
    exact .retried errorCode errorMessage retryDelay now attempts running unsettled left (hd _ does)
  | cancelled moment event unsettled does announced =>
    exact .cancelled moment event unsettled (hd _ does) announced
  | appended event new later does => exact .appended event new later (hd _ does)

theorem Paired.append {v : RunView} {past : List RunAttempt} {current : RunAttempt}
    (h : Paired v past current) {past' : List RunAttempt} {current' : RunAttempt}
    (ha : v.attempts = past' ++ [current']) : past' = past ∧ current' = current := by
  have := append_inj' (ha.symm.trans h.attempts) rfl
  exact ⟨this.1, singleton_inj.mp this.2⟩

theorem Change.shape {Does : Deed → Prop} {v v' : RunView} (h : Change Does v v') (hs : Shape v)
    (hr : ∀ a ∈ v.attempts, a.runId = v.run.id) : Shape v' := by
  obtain ⟨past, current, hp⟩ := hs
  cases h with
  | same => exact ⟨past, current, hp⟩
  | claimed workerId lease moment attempts live =>
    obtain ⟨rfl, rfl⟩ := hp.append attempts
    exact ⟨_, _, { hp with
      attempts := rfl
      paired := hp.paired ▸ live.symm
      leased := fun _ => rfl }⟩
  | renewed lease moment attempts running =>
    obtain ⟨rfl, rfl⟩ := hp.append attempts
    exact ⟨_, _, { hp with attempts := rfl, leased := fun _ => rfl }⟩
  | started moment queued =>
    refine ⟨past, current, { hp with paired := ?_, entered := by simp [Run.withStatus] }⟩
    rw [hp.paired, queued]
    rfl
  | settled status event errorCode errorMessage moment attempts running unsettled terminal =>
    obtain ⟨rfl, rfl⟩ := hp.append attempts
    refine ⟨_, _, { hp with attempts := rfl, paired := ?_, entered := ?_, leased := ?_ }⟩
    · cases status <;> first | rfl | cases terminal
    · rintro rfl
      cases terminal
    · intro h
      cases status <;> cases h
  | retried errorCode errorMessage retryDelay now attempts running unsettled left =>
    obtain ⟨rfl, rfl⟩ := hp.append attempts
    simp only [RunRepository.exhausted, Bool.or_eq_false_iff, decide_eq_false_iff_not, not_le] at left
    refine ⟨_, _, {
      attempts := rfl
      numbered := ?_
      number := by simp [RunAttempt.successor, hp.number]
      bounded := by simpa [hp.number, Run.requeued, Nat.succ_le_iff] using left.2
      settled := ?_
      paired := rfl
      entered := by simp [Run.requeued]
      leased := by simp [RunAttempt.successor] }⟩
    · simp [hp.numbered, RunAttempt.settled, hp.number, range'_1_concat, Nat.add_comm]
    · intro a ha
      obtain ha | ha := mem_append.mp ha
      · exact hp.settled a ha
      · obtain rfl := mem_singleton.mp ha
        rfl
  | cancelled moment event unsettled does announced =>
    have hcur : current.runId = v.run.id := hr current (by simp [hp.attempts])
    have hlive : current.status.live = true := by
      rw [hp.paired, RunStatus.recoverable_eq _ hp.entered, unsettled]
      rfl
    have hpast : past.map (RunRepository.cancelAttempt v.run.id moment) = past := by
      conv_rhs => rw [← List.map_id past]
      apply map_congr_left
      intro a ha
      simp [RunRepository.cancelAttempt, hp.settled a ha]
    refine ⟨past, current.cancelledAt moment, { hp with
      attempts := ?_, paired := rfl, entered := by simp [Run.cancelledAt], leased := nofun }⟩
    rw [hp.attempts, map_append, hpast]
    simp [RunRepository.cancelAttempt, hcur, hlive]
  | appended event new later => exact ⟨past, current, { hp with }⟩

end SelericSwarm
