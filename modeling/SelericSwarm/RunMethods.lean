import SelericSwarm.RunView

/-! Each repository method changes the view of a run by one `Change`, and keeps
the ids and owners of the stored rows in order. -/
open List Option

namespace SelericSwarm
open Keyed

/-- Every attempt row carries a generated id or the retry id of its own number,
and belongs to a stored run. -/
structure WellKeyed (s : RunRepository) : Prop where
  ids : ∀ a ∈ s.attempts.rows,
    (∃ hex, a.id = newId "attempt" hex) ∨ a.id = retryAttemptId a.runId a.attemptNumber
  owned : ∀ a ∈ s.attempts.rows, (s.items.get? a.runId).isSome

structure WellFormed (s : RunRepository) : Prop extends WellKeyed s where
  shape : ∀ runId v, s.view runId = some v → Shape v

/-- One method call: every run's view changes by one `Change`. -/
structure Steps (Does : String → Deed → Prop) (s s' : RunRepository) : Prop where
  view : ∀ runId v, s.view runId = some v → ∃ v', s'.view runId = some v' ∧ Change (Does runId) v v'
  stored : ∀ runId, (s'.items.get? runId).isSome = (s.items.get? runId).isSome
  keyed : WellKeyed s'

namespace RunRepository

variable {s : RunRepository} {r : String}

theorem view_run_id {v : RunView} (h : s.view r = some v) : v.run.id = r := by
  simp only [view, map_eq_some_iff] at h
  obtain ⟨run, hr, rfl⟩ := h
  exact Table.key_of_get? hr

theorem view_eq {v : RunView} (h : s.view r = some v) :
    s.items.get? r = some v.run ∧ s.attemptsOf r = v.attempts ∧ s.eventsOf r = v.events := by
  simp only [view, map_eq_some_iff] at h
  obtain ⟨run, hr, rfl⟩ := h
  exact ⟨hr, rfl, rfl⟩

theorem view_of_get {run : Run} (h : s.get r = some run) : s.view r = some ⟨run, s.attemptsOf r, s.eventsOf r⟩ := by
  rw [view, show s.items.get? r = some run from h]
  rfl

theorem view_attempt_run {v : RunView} (h : s.view r = some v) : ∀ a ∈ v.attempts, a.runId = v.run.id := by
  intro a ha
  rw [← (view_eq h).2.1, mem_attemptsOf] at ha
  rw [ha.2, view_run_id h]

theorem filter_put_other {t : Table RunAttempt.id} {a b : RunAttempt} (hb : t.get? a.id = some b)
    (hr : a.runId = b.runId) (hne : b.runId ≠ r) :
    (t.put a).rows.filter (fun c => c.runId = r) = t.rows.filter fun c => c.runId = r := by
  rw [Table.filter_put _ hb (by simp [hr])]
  apply Table.replace_of_not_mem
  intro c hc he
  have hcm := mem_filter.mp hc
  have hcb := Table.eq_of_mem hcm.1 (Table.mem_of_get? hb) (he.trans (Table.key_of_get? hb).symm)
  subst hcb
  exact hne (by simpa using hcm.2)

theorem filter_put_current {t : Table RunAttempt.id} {a b : RunAttempt} {past : List RunAttempt}
    (hb : t.get? a.id = some b) (hr : a.runId = b.runId) (ht : t.rows.filter (fun c => c.runId = r) = past ++ [b]) :
    (t.put a).rows.filter (fun c => c.runId = r) = past ++ [a] := by
  rw [Table.filter_put _ hb (by simp [hr]), ht]
  apply Table.replace_last
  · rw [← ht]
    exact t.nodup.sublist (filter_sublist.map _)
  · exact Table.key_of_get? hb

end RunRepository

open RunRepository
variable {Does : String → Deed → Prop}
variable {s : RunRepository}

theorem WellFormed.current (h : WellFormed s) {a : RunAttempt} (ha : a ∈ s.attempts.rows)
    (hl : a.status.live = true) : ∃ v past, s.view a.runId = some v ∧ Paired v past a := by
  obtain ⟨run, hr⟩ := isSome_iff_exists.mp (h.owned a ha)
  have hv : s.view a.runId = some ⟨run, s.attemptsOf a.runId, s.eventsOf a.runId⟩ := by
    simp [view, hr]
  obtain ⟨past, hp⟩ := (h.shape _ _ hv).current_of_live (mem_attemptsOf.mpr ⟨ha, rfl⟩) hl
  exact ⟨_, past, hv, hp⟩

theorem Steps.refl (h : WellKeyed s) : Steps Does s s :=
  ⟨fun _ v hv => ⟨v, hv, .same⟩, fun _ => rfl, h⟩

theorem Steps.view_of_view {s' : RunRepository} (h : Steps Does s s') {r : String} {v' : RunView}
    (hv' : s'.view r = some v') : ∃ v, s.view r = some v := by
  have hi := h.stored r
  rw [(view_eq hv').1, isSome_some] at hi
  obtain ⟨run, hr⟩ := isSome_iff_exists.mp hi.symm
  exact ⟨_, by rw [RunRepository.view, hr]; rfl⟩

theorem Steps.wellFormed {s' : RunRepository} (h : Steps Does s s') (hs : WellFormed s) : WellFormed s' := by
  refine { h.keyed with shape := ?_ }
  intro r v' hv'
  obtain ⟨v, hv⟩ := h.view_of_view hv'
  obtain ⟨w, hw, hc⟩ := h.view r _ hv
  obtain rfl := Option.some.inj (hw.symm.trans hv')
  exact hc.shape (hs.shape r _ hv) (view_attempt_run hv)

/-- Rewriting one stored attempt without moving it keeps the rows in order. -/
theorem WellKeyed.put (h : WellKeyed s) {a b : RunAttempt} (hb : s.attempts.get? a.id = some b)
    (hr : a.runId = b.runId) (hn : a.attemptNumber = b.attemptNumber) (items : Table Run.id)
    (hi : ∀ r, (items.get? r).isSome = (s.items.get? r).isSome) (events : Dict String (List ActivityEvent))
    (outbox : Dict String Bool) : WellKeyed ⟨items, s.attempts.put a, events, outbox⟩ := by
  have hbm := Table.mem_of_get? hb
  have hid := Table.key_of_get? hb
  constructor
  · intro c hc
    obtain rfl | hc := Table.mem_put hc
    · rw [hr, hn, ← hid]
      exact h.ids b hbm
    · exact h.ids c hc
  · intro c hc
    simp only [hi]
    obtain rfl | hc := Table.mem_put hc
    · rw [hr]
      exact h.owned b hbm
    · exact h.owned c hc

theorem isSome_put {t : Table Run.id} {a b : Run} (h : t.get? a.id = some b)
    (r : String) : ((t.put a).get? r).isSome = (t.get? r).isSome := by
  rw [Table.get?_put]
  split
  · next he => rw [← he, h]; rfl
  · rfl

section Methods
variable {s : RunRepository}

theorem compareAndSetStatus_steps (h : WellFormed s) (runId : String) (moment : Moment)
    (hd : Does runId .started) :
    Steps Does s (s.compareAndSetStatus runId [.queued] .running moment).2 := by
  obtain he | ⟨run, hrun, hq, he⟩ := s.compareAndSetStatus_cases runId [.queued] .running moment
  · rw [he]
    exact .refl h.toWellKeyed
  · rw [he]
    have hq : run.status = .queued := by simpa using hq
    have hid : run.id = runId := Table.key_of_get? hrun
    have hi := isSome_put (a := run.withStatus .running moment) (hid ▸ hrun)
    refine ⟨?_, hi, ⟨h.ids, fun a ha => (hi _).trans (h.owned a ha)⟩⟩
    intro r v hv
    obtain ⟨hr, ha, hev⟩ := view_eq hv
    by_cases hrr : runId = r
    · subst hrr
      obtain rfl := Option.some.inj (hrun.symm.trans hr)
      refine ⟨_, ?_, .started moment hq hd⟩
      simp [view, ← hid, ← ha, ← hev, Run.withStatus, attemptsOf, eventsOf]
    · refine ⟨v, ?_, .same⟩
      rw [← hv]
      simp [view, Table.get?_put, Run.withStatus, hid, hrr, attemptsOf, eventsOf]

variable {a : RunAttempt} {run : Run}

section
variable (h : WellFormed s)
include h

/-- A live attempt is replaced by one of the same run and number; the run row
and the events stay. -/
theorem put_attempt_steps {b : RunAttempt} (hb : s.attempts.get? a.id = some b) (hl : b.status.live = true)
    (hr : a.runId = b.runId) (hn : a.attemptNumber = b.attemptNumber)
    (hc : ∀ v past, v.attempts = past ++ [b] → Change (Does b.runId) v { v with attempts := past ++ [a] }) :
    Steps Does s { s with attempts := s.attempts.put a } := by
  refine ⟨?_, fun _ => rfl, h.toWellKeyed.put hb hr hn _ (fun _ => rfl) _ _⟩
  intro r v hv
  obtain ⟨hrun, ha, he⟩ := view_eq hv
  by_cases hrr : b.runId = r
  · have hbm : b ∈ v.attempts := ha ▸ mem_attemptsOf.mpr ⟨Table.mem_of_get? hb, hrr⟩
    obtain ⟨past, hp⟩ := (h.shape r v hv).current_of_live hbm hl
    refine ⟨_, ?_, hrr ▸ hc v past hp.attempts⟩
    have hf := filter_put_current hb hr (ha.trans hp.attempts)
    simp [view, hrun, attemptsOf, eventsOf, hf, ← he]
  · refine ⟨v, ?_, .same⟩
    have hf := filter_put_other hb hr hrr
    rw [← hv]
    simp [view, attemptsOf, eventsOf, hf]

theorem claim_steps (runId workerId : String) (lease : Duration) (moment : Moment)
    (hd : ∀ a, a ∈ s.attempts.rows → a.runId = runId → Does runId (.claimed a)) :
    Steps Does s (s.claim runId workerId lease moment).2 := by
  obtain he | ⟨a, ha, hr, hc, he⟩ := s.claim_cases runId workerId lease moment
  · rw [he]
    exact .refl h.toWellKeyed
  · rw [he]
    have hl : a.status.live = true := RunAttempt.live_of_claimable hc
    exact put_attempt_steps h ha hl rfl rfl fun v past hv =>
      .claimed workerId lease moment hv hl (hr ▸ hd a (Table.mem_of_get? ha) hr)

theorem heartbeat_steps (attemptId workerId : String) (lease : Duration) (expectedVersion : Option Nat)
    (moment : Moment) (hd : ∀ a, s.attempts.get? attemptId = some a → Does a.runId (.renewed a)) :
    Steps Does s (s.heartbeat attemptId workerId lease expectedVersion moment).2 := by
  obtain he | ⟨a, ha, hst, -, -, he⟩ :=
    s.heartbeat_cases attemptId workerId lease expectedVersion moment
  · rw [he]
    exact .refl h.toWellKeyed
  · rw [he]
    have hid : a.id = attemptId := Table.key_of_get? ha
    exact put_attempt_steps (b := a) h (hid ▸ ha) (by rw [hst]; rfl) rfl rfl
      fun v past hv => .renewed lease moment hv hst (hd a ha)

theorem appendEvent_steps (event : ActivityEvent) (hd : ∀ n m, Does (event.runId.getD "")
      (.appended { event with sequence := n, threadSequence := m })) : Steps Does s (s.appendEvent event).2 := by
  unfold appendEvent
  dsimp only
  split
  · exact .refl h.toWellKeyed
  next hnew =>
    split
    · exact .refl h.toWellKeyed
    next hseq =>
      refine ⟨?_, fun _ => rfl, ⟨h.ids, h.owned⟩⟩
      intro r v hv
      obtain ⟨hrun, ha, he⟩ := view_eq hv
      by_cases hrr : event.runId.getD "" = r
      · subst hrr
        refine ⟨_, ?_, .appended { event with
          sequence := if event.sequence = 0 then lastSequence v.events + 1 else event.sequence
          threadSequence := s.lastThreadSequence event.threadId + 1 } ?_ ?_ (hd _ _)⟩
        · simp [view, hrun, ← ha, ← he, attemptsOf, eventsOf, Dict.getD_set]
        · intro item hi
          simpa using List.find?_eq_none.mp hnew item (he ▸ hi)
        · rw [he] at hseq
          by_cases hz : event.sequence = 0
          · simp [hz]
          · simp only [ne_eq, hz, not_false_eq_true, true_and, not_le] at hseq
            simpa [hz] using hseq
      · refine ⟨v, ?_, .same⟩
        rw [← hv]
        simp [view, attemptsOf, eventsOf, Dict.getD_set, hrr]

theorem WellFormed.unsettled (ha : a ∈ s.attempts.rows) (hl : a.status.live = true)
    (hr : s.items.get? a.runId = some run) : run.status.terminal = false := by
  obtain ⟨v, past, hv, hp⟩ := h.current ha hl
  obtain rfl := Option.some.inj (hr.symm.trans (view_eq hv).1)
  have := hp.paired
  rw [hl, RunStatus.recoverable_eq _ hp.entered] at this
  simpa using this.symm

theorem settle_steps {b : RunAttempt} {run' : Run} {events : List ActivityEvent} (outbox : Dict String Bool)
    (hb : s.attempts.get? a.id = some b) (hl : b.status.live = true) (hr : a.runId = b.runId)
    (hn : a.attemptNumber = b.attemptNumber) (hrun : s.items.get? b.runId = some run) (hid : run'.id = run.id)
    (hc : ∀ past, Change (Does run.id) ⟨run, past ++ [b], s.eventsOf run.id⟩ ⟨run', past ++ [a], events⟩) :
    Steps Does s ⟨s.items.put run', s.attempts.put a, s.events.set run.id events, outbox⟩ := by
  have hrid : run.id = b.runId := Table.key_of_get? hrun
  have hi := isSome_put (a := run') ((hid.trans hrid) ▸ hrun)
  refine ⟨?_, hi, h.toWellKeyed.put hb hr hn _ hi _ _⟩
  intro r v hv
  obtain ⟨hvr, ha, he⟩ := view_eq hv
  by_cases hrr : b.runId = r
  · subst hrr
    obtain rfl := Option.some.inj (hrun.symm.trans hvr)
    have hbm : b ∈ v.attempts := ha ▸ mem_attemptsOf.mpr ⟨Table.mem_of_get? hb, rfl⟩
    obtain ⟨past, hp⟩ := (h.shape _ v hv).current_of_live hbm hl
    have hf := filter_put_current hb hr (ha.trans hp.attempts)
    refine ⟨⟨run', past ++ [a], events⟩, ?_, ?_⟩
    · simp [view, attemptsOf, eventsOf, hf, Table.get?_put, Dict.getD_set, hid, hrid]
    · have := hc past
      rwa [← hp.attempts, hrid, he] at this
  · refine ⟨v, ?_, .same⟩
    have hf := filter_put_other hb hr hrr
    rw [← hv]
    simp [view, attemptsOf, eventsOf, hf, Table.get?_put, Dict.getD_set, hid, hrid, hrr]

end

theorem finalEvents_announced {event : ActivityEvent} {status : RunStatus} (ht : event.eventType = status.eventType) :
    Announced (s.eventsOf run.id) event (s.finalEvents event run status).2 := by
  unfold finalEvents
  dsimp only
  split
  next hnew =>
    refine .fresh _ ?_ rfl rfl rfl
    intro item hi he
    have := List.find?_eq_none.mp hnew item hi
    simp [he] at this
  next existing hex =>
    have hsame := List.find?_some hex
    simp only [decide_eq_true_eq] at hsame
    refine .reused existing (List.mem_of_find?_eq_some hex) (hsame.imp id fun hc => ⟨?_, hc.2⟩)
    rw [ht, hc.1]
    rfl

theorem failedEvents_announced {attempt : RunAttempt} {errorCode : String} {now : Moment} :
    Announced (s.eventsOf run.id) (failedEvent run attempt errorCode now)
      (s.failedEvents run attempt errorCode now) := by
  unfold failedEvents
  dsimp only
  split
  next hex =>
    obtain ⟨item, hi, he⟩ := List.any_eq_true.mp hex
    exact .reused item hi (Or.inl (by simpa [failedEvent] using he))
  next hnew =>
    refine .fresh _ ?_ rfl rfl rfl
    intro item hi he
    exact hnew (List.any_eq_true.mpr ⟨item, hi, by simpa [failedEvent] using he⟩)

theorem finalizeAttempt_steps (h : WellFormed s) (attemptId workerId : String) (expectedVersion : Nat)
    (requestedStatus : TerminalStatus) (terminalEvent : ActivityEvent) (moment : Moment)
    (errorCode errorMessage : Option String)
    (hd : ∀ a, s.attempts.get? attemptId = some a → a.version = expectedVersion →
      Does a.runId (.settled a requestedStatus (finalEvent terminalEvent requestedStatus moment))) :
    Steps Does s (s.finalizeAttempt attemptId workerId expectedVersion requestedStatus terminalEvent moment
      errorCode errorMessage).2 := by
  obtain he | ⟨a, run, status, final, ha, hst, -, hver, hrun, -, -, hstatus, rfl, he⟩ :=
    s.finalizeAttempt_cases attemptId workerId expectedVersion requestedStatus terminalEvent moment
      errorCode errorMessage
  · rw [he]
    exact .refl h.toWellKeyed
  · rw [he]
    have hl : a.status.live = true := by rw [hst]; rfl
    have hid : a.id = attemptId := Table.key_of_get? ha
    have hu := h.unsettled (Table.mem_of_get? ha) hl hrun
    obtain rfl : status = requestedStatus := by
      rw [hstatus, if_neg]
      exact RunStatus.ne_cancelled_of_not_terminal hu
    refine settle_steps (b := a) h _ (hid ▸ ha) hl rfl rfl hrun rfl fun past => ?_
    exact .settled _ (finalEvent terminalEvent requestedStatus moment) _ _ _ rfl hst hu
      requestedStatus.2 rfl (Table.key_of_get? hrun ▸ hd a ha hver) (finalEvents_announced rfl)

theorem Paired.number_le {v : RunView} {past : List RunAttempt} {current : RunAttempt} (h : Paired v past current)
    (ha : a ∈ v.attempts) : a.attemptNumber ≤ past.length + 1 := by
  rw [h.attempts] at ha
  obtain ha | ha := mem_append.mp ha
  · have hm : a.attemptNumber ∈ List.range' 1 past.length := h.numbered ▸ List.mem_map_of_mem ha
    rw [mem_range'_1] at hm
    omega
  · rw [mem_singleton.mp ha, h.number]

theorem WellFormed.successor_fresh (h : WellFormed s) (ha : a ∈ s.attempts.rows) (hl : a.status.live = true) :
    s.attempts.get? (retryAttemptId a.runId (a.attemptNumber + 1)) = none := by
  obtain ⟨v, past, hv, hp⟩ := h.current ha hl
  rw [Table.get?_eq_none_iff]
  intro hm
  obtain ⟨c, hc, hid⟩ := List.mem_map.mp hm
  obtain ⟨hex, hx⟩ | hx := h.ids c hc
  · exact newId_ne_retryAttemptId hex _ _ (hx.symm.trans hid)
  · obtain ⟨hr, hn⟩ := retryAttemptId_inj (hx.symm.trans hid)
    have hle := hp.number_le (a := c) ((view_eq hv).2.1 ▸ mem_attemptsOf.mpr ⟨hc, hr⟩)
    have := hp.number
    omega

theorem retry_steps (h : WellFormed s) {b : RunAttempt} (hb : b ∈ s.attempts.rows) (hst : b.status = .running)
    (hrun : s.items.get? b.runId = some run) (hx : exhausted run b = false) (hd : Does b.runId (.retried b))
    (errorCode errorMessage : Option String) (retryDelay : Duration) (now : Moment) :
    Steps Does s { s with
      items := s.items.put (run.requeued (b.attemptNumber + 1) retryDelay now)
      attempts := (s.attempts.put (b.settled .failed errorCode errorMessage now)).setdefault
        (b.successor run.id now) } := by
  have hl : b.status.live = true := by rw [hst]; rfl
  have hbg : s.attempts.get? b.id = some b := Table.get?_of_mem hb
  have hrid : run.id = b.runId := Table.key_of_get? hrun
  have hi := isSome_put (a := run.requeued (b.attemptNumber + 1) retryDelay now) (hrid ▸ hrun)
  have hu := h.unsettled hb hl hrun
  have hfresh := h.successor_fresh hb hl
  have hnew : (s.attempts.put (b.settled .failed errorCode errorMessage now)).get?
      (b.successor run.id now).id = none := by
    have hne : b.id ≠ retryAttemptId b.runId (b.attemptNumber + 1) := by
      intro he
      rw [← he, hbg] at hfresh
      cases hfresh
    simp [Table.get?_put, RunAttempt.settled, RunAttempt.successor, hrid, hne, hfresh]
  have hk := h.toWellKeyed.put (a := b.settled .failed errorCode errorMessage now) hbg rfl rfl _ hi
    s.events s.outbox
  rw [Table.setdefault_of_none hnew]
  refine ⟨?_, hi, ?_⟩
  · intro r v hv
    obtain ⟨hvr, ha, he⟩ := view_eq hv
    by_cases hrr : b.runId = r
    · subst hrr
      obtain rfl := Option.some.inj (hrun.symm.trans hvr)
      have hbm : b ∈ v.attempts := ha ▸ mem_attemptsOf.mpr ⟨hb, rfl⟩
      obtain ⟨past, hp⟩ := (h.shape _ v hv).current_of_live hbm hl
      refine ⟨_, ?_, .retried errorCode errorMessage retryDelay now hp.attempts hst hu hx hd⟩
      have hf := filter_put_current (a := b.settled .failed errorCode errorMessage now) hbg rfl
        (ha.trans hp.attempts)
      have hg := Table.filter_put_new (fun c => decide (c.runId = b.runId)) hnew
      rw [hf, if_pos (by simp [RunAttempt.successor, hrid]), hrid] at hg
      simp [view, attemptsOf, eventsOf, hg, ← he, Run.requeued, hrid]
    · refine ⟨v, ?_, .same⟩
      have hf := filter_put_other (a := b.settled .failed errorCode errorMessage now) hbg rfl hrr
      have hg := Table.filter_put_new (fun c => decide (c.runId = r)) hnew
      rw [hf, if_neg (by simp [RunAttempt.successor, hrid, hrr]), hrid] at hg
      rw [← hv]
      simp [view, attemptsOf, eventsOf, hg, Table.get?_put, Run.requeued, hrid, hrr]
  · constructor
    · intro c hc
      obtain rfl | hc := Table.mem_put hc
      · exact Or.inr rfl
      · exact hk.ids c hc
    · intro c hc
      obtain rfl | hc := Table.mem_put hc
      · simp only [hi, RunAttempt.successor, hrid, hrun, isSome_some]
      · exact hk.owned c hc

/-- A failed transition ends the run with its last attempt, and retries any other. -/
def failureDeed (run : Run) (a : RunAttempt) (errorCode : String) (now : Moment) : Deed :=
  if exhausted run a then .settled a .failed (failedEvent run a errorCode now) else .retried a

theorem transitionFailedAttempt_steps (h : WellFormed s) (attemptId : String) (expectedVersion : Nat)
    (retryDelay : Duration) (now : Moment) (errorCode errorMessage : String)
    (workerId : Option String) (leaseExpiredBefore : Option Moment)
    (hd : ∀ run a, s.attempts.get? attemptId = some a → a.status = .running →
      a.version = expectedVersion → (∀ b ∈ leaseExpiredBefore, a.leaseExpiresAt.any (· ≤ b) = true) →
      s.items.get? a.runId = some run → Does a.runId (failureDeed run a errorCode now)) :
    Steps Does s (s.transitionFailedAttempt attemptId expectedVersion retryDelay now errorCode errorMessage
      workerId leaseExpiredBefore).2 := by
  obtain he | ⟨a, run, ha, hst, hver, -, hexp, hrun, he⟩ := s.transitionFailedAttempt_cases attemptId
    expectedVersion retryDelay now errorCode errorMessage workerId leaseExpiredBefore
  · rw [he]
    exact .refl h.toWellKeyed
  · rw [he]
    have hl : a.status.live = true := by rw [hst]; rfl
    have hid : a.id = attemptId := Table.key_of_get? ha
    have ham := Table.mem_of_get? ha
    have hu := h.unsettled ham hl hrun
    have hrid : run.id = a.runId := Table.key_of_get? hrun
    have hdeed := hd run a ha hst hver hexp hrun
    rw [failureDeed] at hdeed
    rw [afterFailure, if_neg (RunStatus.ne_cancelled_of_not_terminal hu)]
    split
    next hx =>
      rw [if_pos hx, ← hrid] at hdeed
      refine settle_steps (b := a) h _ (hid ▸ ha) hl rfl rfl hrun rfl fun past => ?_
      exact .settled .failed (failedEvent run a errorCode now) _ _ _ rfl hst hu rfl rfl hdeed
        failedEvents_announced
    next hx =>
      rw [if_neg hx] at hdeed
      exact retry_steps h ham hst hrun (by simpa using hx) hdeed _ _ _ _

theorem filter_mapRows_cancel (t : Table RunAttempt.id) (runId : String) (moment : Moment) (r : String) :
    (t.mapRows (cancelAttempt runId moment) (cancelAttempt_id runId moment)).rows.filter
        (fun c => c.runId = r) =
      (t.rows.filter fun c => c.runId = r).map (cancelAttempt runId moment) := by
  rw [Table.mapRows, List.filter_map]
  congr 2
  funext c
  simp only [Function.comp_apply, cancelAttempt]
  split <;> rfl

theorem cancel_attempts_steps (h : WellFormed s) {runId : String} {events : Dict String (List ActivityEvent)}
    (outbox : Dict String Bool) (moment : Moment) (event : Option ActivityEvent)
    (hrun : s.items.get? runId = some run) (hu : run.status.terminal = false)
    (hother : ∀ r, runId ≠ r → events.getD r [] = s.eventsOf r) (hd : Does runId (.cancelled event))
    (hown : event.elim (events.getD runId [] = s.eventsOf runId)
      (Announced (s.eventsOf runId) · (events.getD runId []))) :
    Steps Does s ⟨s.items.put (run.cancelledAt moment),
      s.attempts.mapRows (cancelAttempt runId moment) (cancelAttempt_id runId moment), events, outbox⟩ := by
  have hrid : run.id = runId := Table.key_of_get? hrun
  have hi := isSome_put (a := run.cancelledAt moment) (hrid ▸ hrun)
  have hsame : ∀ a, (cancelAttempt runId moment a).runId = a.runId ∧
      (cancelAttempt runId moment a).attemptNumber = a.attemptNumber := by
    intro a
    unfold cancelAttempt
    split <;> exact ⟨rfl, rfl⟩
  refine ⟨?_, hi, ?_⟩
  · intro r v hv
    obtain ⟨hvr, ha, he⟩ := view_eq hv
    by_cases hrr : runId = r
    · subst hrr
      obtain rfl := Option.some.inj (hrun.symm.trans hvr)
      rw [he] at hown
      refine ⟨_, ?_, .cancelled moment event hu hd hown⟩
      rw [view, Table.get?_put, if_pos (by simp [Run.cancelledAt, hrid])]
      simp only [attemptsOf, filter_mapRows_cancel, eventsOf, map_some, hrid, ← ha]
    · refine ⟨v, ?_, .same⟩
      have hkeep : (s.attemptsOf r).map (cancelAttempt runId moment) = s.attemptsOf r := by
        conv_rhs => rw [← List.map_id (s.attemptsOf r)]
        apply map_congr_left
        intro a ham
        have : a.runId ≠ runId := fun hc => hrr (hc.symm.trans (mem_attemptsOf.mp ham).2)
        simp [cancelAttempt, this]
      rw [← hv, view, Table.get?_put, if_neg (by simpa [Run.cancelledAt, hrid] using hrr)]
      simp only [view, attemptsOf, filter_mapRows_cancel, eventsOf] at hkeep hother ⊢
      rw [hkeep, hother r hrr]
  · constructor
    · intro c hc
      obtain ⟨a, ham, rfl⟩ := List.mem_map.mp hc
      rw [cancelAttempt_id, (hsame a).1, (hsame a).2]
      exact h.ids a ham
    · intro c hc
      obtain ⟨a, ham, rfl⟩ := List.mem_map.mp hc
      rw [hi, (hsame a).1]
      exact h.owned a ham

theorem cancelEvents_other {runId r : String} {moment : Moment} {event : Option ActivityEvent}
    (hr : runId ≠ r) : (s.cancelEvents runId moment event).2.getD r [] = s.eventsOf r := by
  unfold cancelEvents
  cases event with
  | none => rfl
  | some event =>
    dsimp only
    split <;> simp [Dict.getD_set, hr, eventsOf]

theorem cancelEvents_announced {runId : String} {moment : Moment} {event : Option ActivityEvent} :
    event.elim ((s.cancelEvents runId moment event).2.getD runId [] = s.eventsOf runId)
      (Announced (s.eventsOf runId) · ((s.cancelEvents runId moment event).2.getD runId [])) := by
  unfold cancelEvents
  cases event with
  | none => rfl
  | some event =>
    simp only [elim_some]
    split
    next existing hex =>
      simp only [Dict.getD_set, if_true]
      exact .reused existing (List.mem_of_find?_eq_some hex)
        (Or.inl (by simpa using List.find?_some hex))
    next hnew =>
      simp only [Dict.getD_set, if_true]
      refine .fresh _ ?_ rfl rfl rfl
      intro item hi
      simpa using List.find?_eq_none.mp hnew item hi

theorem cancel_steps (h : WellFormed s) (runId : String) (moment : Moment)
    (terminalEvent : Option ActivityEvent) (hd : Does runId (.cancelled terminalEvent)) :
    Steps Does s (s.cancel runId moment terminalEvent).2 := by
  obtain ⟨he, -⟩ | ⟨run, hrun, hu, he⟩ := s.cancel_cases runId moment terminalEvent
  · rw [he]
    exact .refl h.toWellKeyed
  · rw [he]
    exact cancel_attempts_steps h _ moment terminalEvent hrun hu (fun r hr => cancelEvents_other hr) hd
      cancelEvents_announced

end Methods

end SelericSwarm
