import SelericSwarm.RunOperations
import SelericSwarm.Polling
import Mathlib.Data.List.Perm.Basic

/-! All events in the order in which they are filed, and pollers that follow one
run and one thread from the position of the last event they have received. -/
open List

namespace SelericSwarm
open Keyed RunRepository Polling

def RunRepository.filedBy (s s' : RunRepository) : List (String × ActivityEvent) :=
  s'.events.rows.flatMap fun row => (row.2.drop (s.eventsOf row.1).length).map (row.1, ·)

/-- `log` only observes the calls: no call reads it. -/
structure EventLog where
  repo : RunRepository := {}
  log : List (String × ActivityEvent) := []
  runSeen : List ActivityEvent := []
  threadSeen : List ActivityEvent := []

inductive EventAction where
  | call (op : RunOp)
  | pollRun
  | pollThread

namespace EventLog

def threadLog (w : EventLog) (threadId : String) : List ActivityEvent :=
  (w.log.map Prod.snd).filter (·.threadId = threadId)

def step (runId threadId : String) (w : EventLog) : EventAction → Option EventLog
  | .call op => (op.step w.repo).map fun repo => { w with
      repo := repo, log := w.log ++ w.repo.filedBy repo }
  | .pollRun => some { w with
      runSeen := w.runSeen ++ w.repo.listEvents runId (last ActivityEvent.sequence w.runSeen) }
  | .pollThread => some { w with
      threadSeen := w.threadSeen ++
        w.repo.listThreadEvents threadId (last ActivityEvent.threadSequence w.threadSeen) }

/-- The event under which the last failure of the attempt ends its run. -/
def failureHomed (home : String → String) (s : RunRepository) (attemptId : String) : Bool :=
  (s.attempts.get? attemptId).all fun a => home (terminalEventId a.runId a.id) = a.runId

/-- Every event id is used for one run only, and `append_event` numbers the event. -/
def opHomed (home : String → String) (s : RunRepository) : RunOp → Bool
  | .finalizeAttempt attemptId _ _ _ event _ _ _ =>
    (s.attempts.get? attemptId).all fun a => home event.id = a.runId
  | .transitionFailedAttempt attemptId _ _ _ _ _ _ _ => failureHomed home s attemptId
  | .recover _ attempt _ _ => failureHomed home s attempt.id
  | .cancel runId _ event => event.all fun e => home e.id = runId
  | .appendEvent event => event.sequence = 0 && home event.id = event.runId.getD ""
  | _ => true

def homed (home : String → String) (w : EventLog) : EventAction → Bool
  | .call op => opHomed home w.repo op
  | _ => true

end EventLog

/-- A call leaves the event lists as they are, or files one event with the next
numbers of its list and of its thread. -/
inductive Filed (home : String → String) (s : RunRepository) :
    Dict String (List ActivityEvent) → Prop
  | kept {events : Dict String (List ActivityEvent)} (same : ∀ r, events.getD r [] = s.eventsOf r) :
      Filed home s events
  | added {event : ActivityEvent} (new : ∀ item ∈ s.eventsOf (home event.id), item.id ≠ event.id)
      (sequence : event.sequence = lastSequence (s.eventsOf (home event.id)) + 1)
      (threadSequence : event.threadSequence = s.lastThreadSequence event.threadId + 1) :
      Filed home s (s.events.set (home event.id) (s.eventsOf (home event.id) ++ [event]))

section Calls
variable {home : String → String} {s : RunRepository}

theorem Filed.same : Filed home s s.events := .kept fun _ => rfl

theorem Filed.set {runId : String} : Filed home s (s.events.set runId (s.eventsOf runId)) := by
  refine .kept fun r => ?_
  rw [Dict.getD_set]
  split
  next h => rw [h]
  next => rfl

variable {event : ActivityEvent}

theorem Filed.of_added {runId : String} (hhome : home event.id = runId)
    (hnew : ∀ item ∈ s.eventsOf runId, item.id ≠ event.id)
    (hsequence : event.sequence = lastSequence (s.eventsOf runId) + 1)
    (hthread : event.threadSequence = s.lastThreadSequence event.threadId + 1) :
    Filed home s (s.events.set runId (s.eventsOf runId ++ [event])) := by
  subst hhome
  exact .added hnew hsequence hthread

theorem finalEvents_filed {run : Run} {status : RunStatus} (hhome : home event.id = run.id) :
    Filed home s (s.events.set run.id (s.finalEvents event run status).2) := by
  unfold finalEvents
  dsimp only
  split
  next hnone =>
    refine .of_added hhome ?_ rfl rfl
    intro item hitem he
    have := List.find?_eq_none.mp hnone item hitem
    simp only [decide_eq_true_eq, not_or] at this
    exact this.1 he
  next => exact .set

theorem failedEvents_filed {run : Run} {attempt : RunAttempt} {errorCode : String} {now : Moment}
    (hhome : home (terminalEventId run.id attempt.id) = run.id) :
    Filed home s (s.events.set run.id (s.failedEvents run attempt errorCode now)) := by
  unfold failedEvents
  dsimp only
  split
  next => exact .set
  next hnew =>
    refine .of_added hhome ?_ rfl rfl
    intro item hitem he
    exact hnew (List.any_eq_true.mpr ⟨item, hitem, by simpa [numbered, failedEvent] using he⟩)

theorem cancelEvents_filed {runId : String} {moment : Moment} {event : Option ActivityEvent}
    (hhome : event.all fun e => home e.id = runId) :
    Filed home s (s.cancelEvents runId moment event).2 := by
  unfold cancelEvents
  cases event with
  | none => exact .same
  | some event =>
    dsimp only
    split
    next => exact .set
    next hnone =>
      refine .of_added (by simpa [numbered] using hhome) ?_ rfl rfl
      intro item hitem
      simpa [numbered] using List.find?_eq_none.mp hnone item hitem

theorem appendEvent_filed (hzero : event.sequence = 0) (hhome : home event.id = event.runId.getD "") :
    Filed home s (s.appendEvent event).2.events := by
  unfold appendEvent
  dsimp only
  split
  next => exact .same
  next hnone =>
    rw [if_neg (by simp [hzero])]
    refine .of_added hhome ?_ (by simp [hzero]) rfl
    intro item hitem
    simpa using List.find?_eq_none.mp hnone item hitem

theorem transitionFailedAttempt_filed {attemptId : String}
    (hhome : EventLog.failureHomed home s attemptId) (expectedVersion : Nat)
    (retryDelay : Duration) (now : Moment) (errorCode errorMessage : String)
    (workerId : Option String) (leaseExpiredBefore : Option Moment) :
    Filed home s (s.transitionFailedAttempt attemptId expectedVersion retryDelay now errorCode
      errorMessage workerId leaseExpiredBefore).2.events := by
  obtain he | ⟨a, run, ha, -, -, -, -, hrun, he⟩ := s.transitionFailedAttempt_cases attemptId
    expectedVersion retryDelay now errorCode errorMessage workerId leaseExpiredBefore
  · rw [he]
    exact .same
  · have hrid : run.id = a.runId := Table.key_of_get? hrun
    rw [he, afterFailure]
    split
    · exact .same
    split
    · have hhome : home (terminalEventId a.runId a.id) = a.runId := by
        simpa [EventLog.failureHomed, ha] using hhome
      exact failedEvents_filed (hrid ▸ hhome)
    · exact .same

theorem RunOp.filed {s' : RunRepository} {op : RunOp} (h : op.step s = some s')
    (hhome : EventLog.opHomed home s op) : Filed home s s'.events := by
  simp only [RunOp.step, Option.ite_none_right_eq_some, Option.some.injEq] at h
  obtain ⟨hadm, rfl⟩ := h
  cases op with
  | submit new =>
    have hsame : (s.submit new).events = s.events := rfl
    exact hsame ▸ .same
  | claim runId workerId lease moment =>
    obtain he | ⟨a, -, -, -, he⟩ := s.claim_cases runId workerId lease moment <;>
    · rw [RunOp.apply, he]
      exact .same
  | heartbeat attemptId workerId lease version moment =>
    obtain he | ⟨a, -, -, -, -, he⟩ := s.heartbeat_cases attemptId workerId lease version moment <;>
    · rw [RunOp.apply, he]
      exact .same
  | start runId moment =>
    obtain he | ⟨run, -, -, he⟩ := s.compareAndSetStatus_cases runId [.queued] .running moment <;>
    · rw [RunOp.apply, he]
      exact .same
  | finalizeAttempt attemptId workerId version status event moment errorCode errorMessage =>
    obtain he | ⟨a, run, final, -, ha, -, -, -, hrun, -, -, -, rfl, he⟩ := s.finalizeAttempt_cases
      attemptId workerId version status event moment errorCode errorMessage
    · rw [RunOp.apply, he]
      exact .same
    · have hrid : run.id = a.runId := Table.key_of_get? hrun
      have hhome : home event.id = a.runId := by simpa [EventLog.opHomed, ha] using hhome
      rw [RunOp.apply, he]
      exact finalEvents_filed (hhome.trans hrid.symm)
  | transitionFailedAttempt attemptId version retryDelay now errorCode errorMessage workerId before =>
    exact transitionFailedAttempt_filed hhome version retryDelay now errorCode errorMessage workerId
      before
  | recover service attempt moment draw =>
    obtain he | he | ⟨run, dropped, -, -, rfl, he⟩ | ⟨moved, rfl, he⟩ :=
      s.recover_cases service attempt moment draw
    · rw [RunOp.apply, he]
      exact .same
    · rw [RunOp.apply, he]
      exact .same
    · rw [RunOp.apply, he]
      obtain hc | ⟨a, b, -, -, -, -, hc⟩ := s.compareAndSetAttempt_cases attempt.id .running
        .cancelled none (some attempt.version) (some moment) moment (some "CANCELLED") none <;>
      · rw [hc]
        exact .same
    · rw [RunOp.apply, he]
      exact transitionFailedAttempt_filed hhome _ _ _ _ _ _ _
  | cancel runId moment event =>
    obtain ⟨he, -⟩ | ⟨run, -, -, he⟩ := s.cancel_cases runId moment event
    · rw [RunOp.apply, he]
      exact .same
    · rw [RunOp.apply, he]
      exact cancelEvents_filed hhome
  | appendEvent event =>
    obtain ⟨hzero, hhome⟩ := Bool.and_eq_true_iff.mp hhome
    exact appendEvent_filed (of_decide_eq_true hzero) (of_decide_eq_true hhome)

end Calls

namespace RunRepository
variable {s s' : RunRepository}

theorem filedBy_of_kept (h : ∀ r, s'.eventsOf r = s.eventsOf r) : s.filedBy s' = [] := by
  rw [filedBy, flatMap_eq_nil_iff]
  intro row hrow
  have hg : Table.get? s'.events row.1 = some row := Table.get?_of_mem hrow
  have hrow : s'.eventsOf row.1 = row.2 := by simp [eventsOf, Dict.getD, Dict.get?, hg]
  rw [← h row.1, hrow, drop_length, map_nil]

theorem filedBy_of_added {runId : String} {event : ActivityEvent}
    (h : s'.events = s.events.set runId (s.eventsOf runId ++ [event])) :
    s.filedBy s' = [(runId, event)] := by
  have hself : Table.get? s'.events runId = some (runId, s.eventsOf runId ++ [event]) := by
    rw [h]
    exact Table.get?_put_self s.events (runId, s.eventsOf runId ++ [event])
  rw [filedBy, Table.flatMap_of_get? (a := (runId, s.eventsOf runId ++ [event])) hself]
  · simp
  · intro row hrow hne
    have hg : Table.get? s'.events row.1 = some row := Table.get?_of_mem hrow
    have hrow : s.eventsOf row.1 = row.2 := by
      have : s'.events.getD row.1 [] = row.2 := by simp [Dict.getD, Dict.get?, hg]
      rwa [h, Dict.getD_set, if_neg (Ne.symm hne)] at this
    rw [hrow, drop_length, map_nil]

theorem le_lastThreadSequence {runId : String} {event : ActivityEvent}
    (h : event ∈ s.eventsOf runId) : event.threadSequence ≤ s.lastThreadSequence event.threadId := by
  have hmem : event ∈ s.events.values.flatten.filter (·.threadId = event.threadId) := by
    simpa using Dict.mem_values_flatten.mpr ⟨runId, h⟩
  have hnumber := List.mem_map_of_mem (f := ActivityEvent.threadSequence) hmem
  rw [lastThreadSequence, foldl_max]
  exact (List.le_max?_getD_of_mem hnumber).trans (Nat.le_max_right 0 _)

end RunRepository

/-- The store's event lists are the log sorted by run, and each reader has
received the front of what it follows. -/
structure Logged (home : String → String) (runId threadId : String) (w : EventLog) : Prop where
  lists : ∀ r, w.repo.eventsOf r = (w.log.filter (·.1 = r)).map Prod.snd
  runs : ∀ r, Rising ActivityEvent.sequence (w.repo.eventsOf r)
  threads : ∀ t, Rising ActivityEvent.threadSequence (w.threadLog t)
  homes : ∀ entry ∈ w.log, home entry.2.id = entry.1
  ids : (w.log.map fun entry => entry.2.id).Nodup
  runSeen : w.runSeen <+: w.repo.eventsOf runId
  threadSeen : w.threadSeen <+: w.threadLog threadId

section Runs
variable {home : String → String} {runId threadId : String} {w w' : EventLog}
variable {event : ActivityEvent} {repo : RunRepository}

theorem Logged.mem_log (h : Logged home runId threadId w) {r : String} :
    event ∈ w.repo.eventsOf r ↔ (r, event) ∈ w.log := by
  rw [h.lists]
  simp

theorem Logged.perm (h : Logged home runId threadId w) :
    w.repo.events.values.flatten.Perm (w.log.map Prod.snd) := by
  have hlog : (w.log.map Prod.snd).Nodup := by
    have hids := h.ids
    rw [← Function.comp_def ActivityEvent.id Prod.snd, ← List.map_map] at hids
    exact hids.of_map
  have hrow : ∀ row ∈ w.repo.events.rows, row.2 = w.repo.eventsOf row.1 := by
    intro row hrow
    have hg : Table.get? w.repo.events row.1 = some row := Table.get?_of_mem hrow
    simp [eventsOf, Dict.getD, Dict.get?, hg]
  refine (perm_ext_iff_of_nodup ?_ hlog).mpr ?_
  · refine nodup_flatten.mpr ⟨?_, ?_⟩
    · intro events hevents
      obtain ⟨row, hmem, rfl⟩ := List.mem_map.mp hevents
      rw [hrow row hmem]
      exact (h.runs row.1).nodup
    · -- an event of two rows would be at home in both
      rw [Dict.values, pairwise_map]
      refine (pairwise_map.mp w.repo.events.nodup).imp_of_mem ?_
      intro a b ha hb hne
      rw [disjoint_left]
      intro event hea heb
      rw [hrow a ha, h.mem_log] at hea
      rw [hrow b hb, h.mem_log] at heb
      exact hne ((h.homes _ hea).symm.trans (h.homes _ heb))
  · intro event
    rw [Dict.mem_values_flatten, List.mem_map]
    constructor
    · intro hevent
      obtain ⟨r, hr⟩ := hevent
      exact ⟨(r, event), h.mem_log.mp hr, rfl⟩
    · intro hevent
      obtain ⟨⟨r, _⟩, hmem, rfl⟩ := hevent
      exact ⟨r, h.mem_log.mpr hmem⟩

theorem Logged.listThreadEvents (h : Logged home runId threadId w) (t : String) (after : Nat) :
    w.repo.listThreadEvents t after = (w.threadLog t).filter fun e => after < e.threadSequence := by
  refine ((h.threads t).filter _).eq_insertionSort ?_
  rw [EventLog.threadLog, List.filter_filter]
  refine (h.perm.filter _).trans (.of_eq (filter_congr ?_))
  intro event _
  simp [Bool.and_comm]

theorem Logged.start : Logged home runId threadId {} where
  lists _ := rfl
  runs _ := .nil
  threads _ := .nil
  homes := by simp
  ids := .nil
  runSeen := prefix_rfl
  threadSeen := prefix_rfl

section
variable (h : Logged home runId threadId w)
include h

theorem Logged.kept (hsame : ∀ r, repo.eventsOf r = w.repo.eventsOf r) :
    Logged home runId threadId { w with repo } where
  lists r := (hsame r).trans (h.lists r)
  runs r := (hsame r).symm ▸ h.runs r
  threads := h.threads
  homes := h.homes
  ids := h.ids
  runSeen := (hsame runId).symm ▸ h.runSeen
  threadSeen := h.threadSeen

theorem Logged.added (hnew : ∀ item ∈ w.repo.eventsOf (home event.id), item.id ≠ event.id)
    (hsequence : event.sequence = lastSequence (w.repo.eventsOf (home event.id)) + 1)
    (hthread : event.threadSequence = w.repo.lastThreadSequence event.threadId + 1)
    (hrepo : repo.events = w.repo.events.set (home event.id)
      (w.repo.eventsOf (home event.id) ++ [event])) :
    Logged home runId threadId { w with repo, log := w.log ++ [(home event.id, event)] } := by
  have hevents : ∀ r, repo.eventsOf r =
      if home event.id = r then w.repo.eventsOf r ++ [event] else w.repo.eventsOf r := by
    intro r
    rw [eventsOf, hrepo, Dict.getD_set]
    split
    next hr => rw [hr]
    next => rfl
  have hgrow : ∀ r, w.repo.eventsOf r <+: repo.eventsOf r := by
    intro r
    rw [hevents]
    split
    · exact prefix_append _ _
    · exact prefix_rfl
  have hthreadLog : ∀ t, ({ w with repo, log := w.log ++ [(home event.id, event)] } :
      EventLog).threadLog t = w.threadLog t ++ if event.threadId = t then [event] else [] := by
    intro t
    by_cases ht : event.threadId = t <;> simp [EventLog.threadLog, ht]
  constructor
  · intro r
    rw [hevents, filter_append, map_append, h.lists]
    by_cases hr : home event.id = r <;> simp [hr]
  · intro r
    rw [hevents]
    split
    next hr =>
      subst hr
      refine (h.runs _).concat ?_ (by omega)
      intro item hitem
      have hle : item.sequence ≤ lastSequence (w.repo.eventsOf (home event.id)) :=
        (h.runs _).le_last hitem
      omega
    next => exact h.runs r
  · intro t
    rw [hthreadLog]
    split
    next ht =>
      subst ht
      refine (h.threads _).concat ?_ (by omega)
      intro item hitem
      obtain ⟨hmem, hid⟩ := mem_filter.mp hitem
      obtain ⟨⟨r, earlier⟩, hentry, rfl⟩ := List.mem_map.mp hmem
      have hle := le_lastThreadSequence (h.mem_log.mpr hentry)
      rw [of_decide_eq_true hid] at hle
      dsimp only
      omega
    next => simpa using h.threads t
  · intro entry hentry
    obtain hold | hnew := mem_append.mp hentry
    · exact h.homes entry hold
    · rw [mem_singleton.mp hnew]
  · rw [map_append, nodup_append]
    refine ⟨h.ids, by simp, ?_⟩
    intro a ha b hb hab
    obtain ⟨⟨r, item⟩, hentry, rfl⟩ := List.mem_map.mp ha
    have hid : item.id = event.id := by simpa using hab.trans (by simpa using hb)
    -- the id has its home in the run, so the run's list holds the earlier event
    have hr : home item.id = r := h.homes _ hentry
    rw [hid] at hr
    exact hnew item (hr ▸ h.mem_log.mpr hentry) hid
  · exact h.runSeen.trans (hgrow runId)
  · rw [hthreadLog]
    exact h.threadSeen.trans (prefix_append _ _)

theorem Logged.call {op : RunOp} (hop : op.step w.repo = some repo) (hhome : EventLog.opHomed home w.repo op) :
    Logged home runId threadId { w with repo, log := w.log ++ w.repo.filedBy repo } := by
  generalize hevents : repo.events = events
  have hfiled := RunOp.filed hop hhome
  rw [hevents] at hfiled
  cases hfiled with
  | kept same =>
    rw [filedBy_of_kept fun r => by rw [eventsOf, hevents, same], append_nil]
    exact h.kept fun r => by rw [eventsOf, hevents, same]
  | @added event new sequence threadSequence =>
    rw [filedBy_of_added hevents]
    exact h.added new sequence threadSequence hevents

theorem Logged.pollRun :
    w.runSeen ++ w.repo.listEvents runId (last ActivityEvent.sequence w.runSeen) =
      w.repo.eventsOf runId :=
  (h.runs runId).poll h.runSeen

theorem Logged.pollThread :
    w.threadSeen ++ w.repo.listThreadEvents threadId
      (last ActivityEvent.threadSequence w.threadSeen) = w.threadLog threadId := by
  rw [h.listThreadEvents]
  exact (h.threads threadId).poll h.threadSeen

theorem Logged.step {a : EventAction} (hhome : w.homed home a) (ha : w.step runId threadId a = some w') :
    Logged home runId threadId w' := by
  cases a with
  | call op =>
    obtain ⟨repo, hop, rfl⟩ := Option.map_eq_some_iff.mp ha
    exact h.call hop hhome
  | pollRun =>
    cases ha
    exact { h with runSeen := h.pollRun ▸ prefix_rfl }
  | pollThread =>
    cases ha
    exact { h with threadSeen := h.pollThread ▸ prefix_rfl }

theorem Logged.appendEvent_again {stored : ActivityEvent} {r : String} (hstored : stored ∈ w.repo.eventsOf r)
    (hid : stored.id = event.id) (hhome : home event.id = event.runId.getD "") :
    w.repo.appendEvent event = (.ok stored, w.repo) := by
  have hentry := h.mem_log.mp hstored
  have hr : event.runId.getD "" = r := by
    have := h.homes _ hentry
    rw [← hhome, ← hid, this]
  rw [appendEvent, hr]
  cases hfind : (w.repo.eventsOf r).find? (·.id = event.id) with
  | none =>
    have := List.find?_eq_none.mp hfind stored hstored
    simp [hid] at this
  | some existing =>
    have hexisting := h.mem_log.mp (List.mem_of_find?_eq_some hfind)
    have hsame : existing.id = stored.id := by
      have := List.find?_some hfind
      simpa [hid] using this
    have heq := inj_on_of_nodup_map h.ids hexisting hentry hsame
    simp [(Prod.mk.inj heq).2]

end

end Runs

/-- In every reachable state the events of a run rise in their sequence and those
of a thread, in the order in which they were filed, in their thread sequence; an
id that is already filed is answered with its event; and whatever is filed
between two polls, a poll brings its reader up to date. -/
theorem events_delivered (home : String → String) {runId threadId : String}
    {actions : List EventAction} {w : EventLog}
    (h : Machine.exec (EventLog.step runId threadId) {} actions = some w)
    (hhome : Machine.Along (EventLog.step runId threadId)
      (fun w a => w.homed home a) {} actions) :
    Logged home runId threadId w ∧
      (∀ event stored r, stored ∈ w.repo.eventsOf r → stored.id = event.id →
        home event.id = event.runId.getD "" → w.repo.appendEvent event = (.ok stored, w.repo)) ∧
      (∀ w', w.step runId threadId .pollRun = some w' → w'.runSeen = w'.repo.eventsOf runId) ∧
      ∀ w', w.step runId threadId .pollThread = some w' → w'.threadSeen = w'.threadLog threadId := by
  have hlogged : Logged home runId threadId w :=
    Machine.invariant_along (fun _ _ _ hi hok ha => hi.step hok ha) .start hhome h
  refine ⟨hlogged, fun event stored r => hlogged.appendEvent_again, ?_, ?_⟩
  · intro w' hw
    cases hw
    exact hlogged.pollRun
  · intro w' hw
    cases hw
    exact hlogged.pollThread

/-- Two runs of one thread; the first event is filed twice. -/
def twoRuns : List EventAction :=
  let event (id runId : String) : EventAction := .call (.appendEvent {
    id := id, threadId := "t", workspaceId := "w", runId := some runId, eventType := "run.progress" })
  [event "e1" "r1", .pollThread, event "e2" "r2", event "e1" "r1", .pollRun, .pollThread]

def homeOfTwo (id : String) : String := if id = "e1" then "r1" else "r2"

theorem twoRuns_delivered : ∃ w, Machine.exec (EventLog.step "r2" "t") {} twoRuns = some w ∧
    w.threadSeen.map (·.id) = ["e1", "e2"] ∧ Logged homeOfTwo "r2" "t" w := by
  have h : (Machine.exec (EventLog.step "r2" "t") {} twoRuns).any (fun w =>
      w.threadSeen.map (·.id) = ["e1", "e2"]) = true := by decide
  obtain ⟨w, hw, hseen⟩ := (Option.any_eq_true _ _).mp h
  exact ⟨w, hw, of_decide_eq_true hseen, (events_delivered homeOfTwo hw (by decide)).1⟩

end SelericSwarm
