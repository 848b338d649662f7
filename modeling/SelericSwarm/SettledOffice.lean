import SelericSwarm.OfficeNormalize

/-! The snapshot of a mission that has ended: what its agents are left at, who is marked as the lead, the board,
and the events shown with it. -/
namespace SelericSwarm.Office
open List

inductive StepState where
  | done
  | active
  | pending
  deriving DecidableEq

structure BoardStep where
  id : String
  label : String
  state : StepState
  deriving DecidableEq

def boardSteps : List (String × String) :=
  [("verify", "Verify issue"), ("frontier", "Find causal frontier"), ("diagnose", "Diagnose cause"),
    ("forecast", "Forecast impact"), ("strategy", "Design strategy"), ("skeptic", "Skeptic review")]

/-- Whether the bucket holds anything. -/
def filled (artCounts : List (String × Nat)) (bucket : String) : Bool := (artCounts.lookup bucket).getD 0 ≠ 0

def doneSteps (kinds : List String) (artCounts : List (String × Nat)) : List String :=
  (if "task_wave_executed" ∈ kinds ∨ filled artCounts "evidence" then ["verify"] else []) ++
  (if filled artCounts "anomaly" then ["verify"] else []) ++
  (if "leadership_transfer" ∈ kinds then ["frontier"] else []) ++
  (if "skeptic_gate" ∈ kinds ∧ (filled artCounts "causal" ∨ filled artCounts "hypothesis") then ["diagnose"] else []) ++
  (if filled artCounts "prediction" then ["forecast"] else []) ++
  (if filled artCounts "strategy" then ["strategy"] else []) ++
  (if "skeptic_pass" ∈ kinds then ["skeptic"] else [])

def activeSteps (kinds : List String) (artCounts : List (String × Nat)) : List String :=
  (if "leadership_transfer" ∉ kinds ∧ "task_wave_executed" ∈ kinds then ["frontier"] else []) ++
  (if filled artCounts "hypothesis" ∨ filled artCounts "causal" then ["diagnose"] else []) ++
  (if "skeptic_pass" ∉ kinds ∧ "skeptic_gate" ∈ kinds then ["skeptic"] else [])

def activateFirst : List BoardStep → List BoardStep
  | [] => []
  | s :: steps => if s.state = .pending then { s with state := .active } :: steps else s :: activateFirst steps

def boardState (kinds : List String) (artCounts : List (String × Nat)) (status : String) : List BoardStep :=
  let settled := status ∈ ["completed", "prototype_completed"]
  let done := if settled then boardSteps.map (·.1) else doneSteps kinds artCounts
  let active := if settled then [] else activeSteps kinds artCounts
  let steps := boardSteps.map fun (id, label) =>
    { id, label, state := if id ∈ done then .done else if id ∈ active then .active else .pending : BoardStep }
  if steps.any (·.state = .active) then steps else activateFirst steps

def MissionRecord.board (record : MissionRecord) : List BoardStep :=
  boardState ((sortEvents record.events).map MissionEvent.shownKind) record.artifacts record.statusText

/-- Nobody with such a status is at work. -/
def AgentOfficeState.AtRest (st : AgentOfficeState) : Prop := st ∈ [.idle, .completed, .failed, .blocked, .offline]

instance (st : AgentOfficeState) : Decidable st.AtRest := inferInstanceAs (Decidable (st ∈ _))

/-- What the office shows of a mission that has ended. -/
structure Finished (now : String) (eventSummary : String → MissionEvent → String) (missionId : String)
    (record : MissionRecord) : Prop where
  rest : ∀ a ∈ (buildOfficeSnapshot now eventSummary missionId record).agents, a.status.AtRest
  lead : ((buildOfficeSnapshot now eventSummary missionId record).agents.filter (·.missionLead)).map (·.agentId) =
    (leadOf record.missionLead).toList
  board : record.statusText ∈ ["completed", "prototype_completed"] → ∀ s ∈ record.board, s.state = .done
  timeline : (buildOfficeSnapshot now eventSummary missionId record).timeline =
    normalizeEvents now eventSummary record.events 0
  lastSeq : (buildOfficeSnapshot now eventSummary missionId record).lastSeq =
    some (((normalizeEvents now eventSummary record.events 0).getLast?.map (·.seq)).getD 0)

/-- A wave sends the observer for evidence, unless the observer leads it. -/
def MissionEvent.SendsObserver (ev : MissionEvent) : Prop :=
  ev.kind = some "task_wave_executed" ∧ leadOf ev.data.missionLead ≠ some "observer_agent"

/-- The event gives the observer something else to do. -/
def MissionEvent.RecallsObserver (ev : MissionEvent) : Prop :=
  (ev.kind = some "task_wave_executed" ∧ leadOf ev.data.missionLead = some "observer_agent") ∨
  (ev.kind = some "leadership_transfer" ∧
    (leadOf ev.data.fromAgent = some "observer_agent" ∨
      leadOf (either ev.data.toAgent ev.data.requestedTarget) = some "observer_agent")) ∨
  ((ev.kind = some "remediation_activated" ∨ ev.kind = some "specialist_error") ∧
    leadOf ev.data.agent = some "observer_agent")

instance (ev : MissionEvent) : Decidable ev.SendsObserver := inferInstanceAs (Decidable (_ ∧ _))
instance (ev : MissionEvent) : Decidable ev.RecallsObserver := inferInstanceAs (Decidable (_ ∨ _))

def ObserverRecalled : List MissionEvent → Prop
  | [] => True
  | ev :: later => (ev.SendsObserver → ∃ e ∈ later, e.RecallsObserver) ∧ ObserverRecalled later

instance decidableObserverRecalled : (events : List MissionEvent) → Decidable (ObserverRecalled events)
  | [] => inferInstanceAs (Decidable True)
  | ev :: later =>
    have := decidableObserverRecalled later
    inferInstanceAs (Decidable ((ev.SendsObserver → ∃ e ∈ later, e.RecallsObserver) ∧ ObserverRecalled later))

/-! What an event makes of the observer. -/

section Observer
variable {ev : MissionEvent} {events : List MissionEvent}

theorem sends_onStatus (h : ev.SendsObserver) (st : AgentOfficeState) :
    ev.onStatus "observer_agent" st = .retrievingEvidence := by
  obtain ⟨hkind, hlead⟩ := h
  simp [MissionEvent.onStatus, MissionEvent.touches, hkind, named, hlead]

theorem recalls_onStatus (h : ev.RecallsObserver) (st : AgentOfficeState) :
    ev.onStatus "observer_agent" st ≠ .retrievingEvidence := by
  have hobserver : "observer_agent" ∈ officeAgents := by decide
  obtain ⟨hkind, hlead⟩ | ⟨hkind, hnamed⟩ | ⟨hkind, hnamed⟩ := h
  · simp [MissionEvent.onStatus, MissionEvent.touches, hkind, named, hlead]
  · simp only [MissionEvent.onStatus, MissionEvent.touches, hkind, Option.getD_some, foldl_cons, foldl_nil,
      named_iff hobserver]
    by_cases hto : leadOf (either ev.data.toAgent ev.data.requestedTarget) = some "observer_agent"
    · simp [hto]
    · simp [hto, hnamed.resolve_right hto]
  · have hagent := (either_leadOf hobserver).mpr hnamed
    obtain hkind | hkind := hkind
    · simp [MissionEvent.onStatus, MissionEvent.touches, hkind, named_iff hobserver, hagent]
    · simp [MissionEvent.onStatus, MissionEvent.touches, hkind, named_iff hobserver, hagent]

theorem ignores_onStatus (hsends : ¬ev.SendsObserver) (hrecalls : ¬ev.RecallsObserver) (st : AgentOfficeState) :
    ev.onStatus "observer_agent" st = st := by
  have hobserver : "observer_agent" ∈ officeAgents := by decide
  unfold MissionEvent.onStatus MissionEvent.touches
  split
  case h_16 => rfl
  all_goals
    rename_i hget
    have hkind := (kind_of_getD hget (by decide)).1
    simp [MissionEvent.SendsObserver, MissionEvent.RecallsObserver, hkind] at hsends hrecalls
  all_goals simp [named_iff hobserver]
  case h_5 => exact absurd hsends hrecalls
  case h_6 =>
    by_cases hdiagnostic : "diagnostic" ∈ ev.data.intents.getD [] <;>
      by_cases hpredictive : "predictive" ∈ ev.data.intents.getD [] <;>
        by_cases hprescriptive : "prescriptive" ∈ ev.data.intents.getD [] <;>
          simp [hdiagnostic, hpredictive, hprescriptive]
  case h_7 => simp [hrecalls]
  case h_13 | h_14 => simp [either_leadOf hobserver, hrecalls]

theorem fetching_iff : ∀ st : AgentOfficeState,
    events.foldl (fun st e => e.onStatus "observer_agent" st) st = .retrievingEvidence ↔
      ¬ObserverRecalled events ∨ st = .retrievingEvidence ∧ ∀ e ∈ events, ¬e.RecallsObserver := by
  induction events with
  | nil => simp [ObserverRecalled]
  | cons e events ih =>
    intro st
    rw [foldl_cons, ih]
    by_cases hsends : e.SendsObserver
    · have hkeeps : ¬e.RecallsObserver := by
        rintro (⟨-, hlead⟩ | ⟨hkind, -⟩ | ⟨hkind, -⟩)
        · exact hsends.2 hlead
        · rw [hsends.1] at hkind
          exact absurd hkind (by decide)
        · rw [hsends.1] at hkind
          exact absurd hkind (by decide)
      simp only [sends_onStatus hsends, true_and, ObserverRecalled, hsends, forall_const, forall_mem_cons, hkeeps,
        not_false_eq_true]
      by_cases hrecalled : ∃ e ∈ events, e.RecallsObserver
      · have hnot : ¬∀ e ∈ events, ¬e.RecallsObserver := by simpa using hrecalled
        simp [hrecalled, hnot]
      · have hall : ∀ e ∈ events, ¬e.RecallsObserver := by simpa using hrecalled
        simp only [hrecalled, false_and, not_false_eq_true, true_or]
        exact iff_of_true (Or.inr hall) trivial
    · simp only [ObserverRecalled, hsends, false_implies, true_and, forall_mem_cons]
      by_cases hrecalls : e.RecallsObserver
      · simp [hrecalls, recalls_onStatus hrecalls st]
      · simp [hrecalls, ignores_onStatus hsends hrecalls st]

end Observer

/-! What the end of the mission makes of the statuses. -/

section Rest
variable {k : String}

/-- The events leave an agent at rest, at work, or on an errand. -/
def AgentOfficeState.Folded (st : AgentOfficeState) : Prop :=
  st.AtRest ∨ st.busy = true ∨ st = .retrievingEvidence

instance (st : AgentOfficeState) : Decidable st.Folded := inferInstanceAs (Decidable (_ ∨ _))

theorem touches_folded (ev : MissionEvent) : ∀ t ∈ ev.touches, t.2.status.Folded := by
  unfold MissionEvent.touches
  split
  all_goals simp [AgentOfficeState.Folded, AgentOfficeState.AtRest, AgentOfficeState.busy]
  rintro a b (⟨-, -, rfl⟩ | ⟨-, -, rfl⟩ | ⟨-, -, rfl⟩) <;> simp

theorem onStatus_folded (ev : MissionEvent) {st : AgentOfficeState} (h : st.Folded) : (ev.onStatus k st).Folded := by
  have htouches := touches_folded ev
  unfold MissionEvent.onStatus
  revert htouches
  induction ev.touches generalizing st with
  | nil => exact fun _ => h
  | cons t ts ih =>
    intro htouches
    rw [foldl_cons]
    refine ih ?_ fun t' ht' => htouches t' (mem_cons_of_mem t ht')
    split
    · exact htouches t mem_cons_self
    · exact h

theorem foldl_folded (events : List MissionEvent) {st : AgentOfficeState} (h : st.Folded) :
    (events.foldl (fun st e => e.onStatus k st) st).Folded := by
  induction events generalizing st with
  | nil => exact h
  | cons e events ih => exact ih (onStatus_folded e h)

theorem ended_atRest (status : String) : (ended status).AtRest := by
  unfold ended
  split <;> decide

/-- All work is settled at the end but for the errand. -/
theorem finalStatus_atRest_iff (record : MissionRecord) (hterminal : Terminal record.statusText) (k : String) :
    (record.finalStatus k).AtRest ↔ record.folded k ≠ .retrievingEvidence := by
  have hfolded : (record.folded k).Folded := foldl_folded (k := k) _ (by decide)
  unfold MissionRecord.finalStatus owned
  simp only [hterminal, true_and]
  split
  · rename_i howned
    rw [howned.1, if_neg (by decide)]
    decide
  · obtain hrest | hbusy | hfetching := hfolded
    · have hbusy : (record.folded k).busy = false := by
        revert hrest
        cases record.folded k <;> decide
      rw [hbusy]
      refine ⟨fun _ hfetching => ?_, fun _ => hrest⟩
      rw [hfetching] at hrest
      exact absurd hrest (by decide)
    · rw [hbusy, if_pos rfl]
      refine ⟨fun _ hfetching => ?_, fun _ => ended_atRest record.statusText⟩
      rw [hfetching] at hbusy
      cases hbusy
    · rw [hfetching, if_neg (by decide)]
      decide

theorem observer_folded_iff (record : MissionRecord) :
    record.folded "observer_agent" ≠ .retrievingEvidence ↔ ObserverRecalled (sortEvents record.events) := by
  rw [MissionRecord.folded, Ne, fetching_iff]
  simp

theorem others_folded (record : MissionRecord) (hne : k ≠ "observer_agent") : record.folded k ≠ .retrievingEvidence :=
  foldl_ne_retrieving hne _ .idle (by decide)

theorem snapshot_rest_iff (now : String) (eventSummary : String → MissionEvent → String) (missionId : String)
    (record : MissionRecord) (hterminal : Terminal record.statusText) :
    (∀ a ∈ (buildOfficeSnapshot now eventSummary missionId record).agents, a.status.AtRest) ↔
      ObserverRecalled (sortEvents record.events) := by
  rw [← observer_folded_iff]
  constructor
  · intro hrest
    have hobserver : "observer_agent" ∈ officeAgents := by decide
    obtain ⟨a, ha, -, -, hstatus, -⟩ := agents_apply record hobserver
    have hmem := hrest a (mem_filterMap.mpr ⟨_, hobserver, ha⟩)
    rw [hstatus] at hmem
    exact (finalStatus_atRest_iff record hterminal _).mp hmem
  · intro hobserver a hmem
    obtain ⟨k, hk, ha⟩ := mem_filterMap.mp hmem
    obtain ⟨a', ha', -, -, hstatus, -⟩ := agents_apply record hk
    obtain rfl := Option.some.inj (ha.symm.trans ha')
    rw [hstatus, finalStatus_atRest_iff record hterminal]
    by_cases hne : k = "observer_agent"
    · rw [hne]
      exact hobserver
    · exact others_folded record hne

end Rest

/-! The lead, the board and the events. -/

section Shown
variable (now : String) (eventSummary : String → MissionEvent → String) (missionId : String) (record : MissionRecord)

theorem filter_leads {ids : List String} (hids : ∀ k ∈ ids, k ∈ officeAgents) :
    ((ids.filterMap record.agents).filter (·.missionLead)).map (·.agentId) =
      ids.filter fun k => leadOf record.missionLead = some k := by
  induction ids with
  | nil => rfl
  | cons k ids ih =>
    obtain ⟨a, ha, hid, -, -, hlead⟩ := agents_apply record (hids k mem_cons_self)
    have hrest := ih fun j hj => hids j (mem_cons_of_mem k hj)
    rw [filterMap_cons_some ha]
    by_cases hleads : leadOf record.missionLead = some k
    · have ha' : a.missionLead = true := by rw [hlead, decide_eq_true hleads]
      rw [filter_cons_of_pos ha', filter_cons_of_pos (by simpa using hleads), map_cons, hrest, hid]
    · have ha' : ¬a.missionLead = true := by
        rw [hlead]
        simpa using hleads
      rw [filter_cons_of_neg ha', filter_cons_of_neg (by simpa using hleads), hrest]

theorem leadOf_office {lead : Option String} {k : String} (h : leadOf lead = some k) : k ∈ officeAgents := by
  cases lead with
  | none => cases h
  | some l =>
    by_cases hl : l = ""
    · subst hl
      cases h
    · rw [leadOf_some hl] at h
      split at h
      · rename_i hmem
        rwa [← Option.some.inj h]
      · split at h
        · rename_i hmem
          rwa [← Option.some.inj h]
        · cases h

theorem snapshot_lead :
    ((buildOfficeSnapshot now eventSummary missionId record).agents.filter (·.missionLead)).map (·.agentId) =
      (leadOf record.missionLead).toList := by
  have hagents : (buildOfficeSnapshot now eventSummary missionId record).agents = officeAgents.filterMap record.agents :=
    rfl
  rw [hagents, filter_leads record fun k hk => hk]
  cases hlead : leadOf record.missionLead with
  | none => simp
  | some k =>
    have hnodup : officeAgents.Nodup := by decide
    have hcount := count_eq_one_of_mem hnodup (leadOf_office hlead)
    have hsame : (officeAgents.filter fun j => decide (some k = some j)) = officeAgents.filter (· == k) :=
      filter_congr fun j _ => by simp only [Option.some.injEq, Bool.beq_eq_decide_eq, eq_comm]
    rw [hsame, filter_beq, hcount]
    rfl

theorem board_done (h : record.statusText ∈ ["completed", "prototype_completed"]) : ∀ s ∈ record.board, s.state = .done := by
  have hboard : record.board = boardSteps.map fun (id, label) => { id, label, state := .done } := by
    unfold MissionRecord.board boardState
    simp only [h, if_true]
    decide
  rw [hboard]
  decide

theorem sortEvents_sorted (events : List MissionEvent) : (sortEvents events).Pairwise fun a b => a.seq ≤ b.seq :=
  pairwise_insertionSort _ events

theorem snapshot_timeline : (buildOfficeSnapshot now eventSummary missionId record).timeline =
    normalizeEvents now eventSummary record.events 0 := by
  have hsorted : sortEvents (sortEvents record.events) = sortEvents record.events :=
    Pairwise.insertionSort_eq (sortEvents_sorted record.events)
  have htimeline : (buildOfficeSnapshot now eventSummary missionId record).timeline =
    normalizeEvents now eventSummary (sortEvents record.events) 0 := rfl
  rw [htimeline, normalizeEvents, normalizeEvents, hsorted]

theorem lastSeq_of_sorted {events : List MissionEvent} (h : events.Pairwise fun a b => a.seq ≤ b.seq) :
    (events.getLast?.map (·.seq)).getD 0 =
      ((((events.filter (0 < ·.seq)).map (MissionEvent.shown now eventSummary)).getLast?).map (·.seq)).getD 0 := by
  rcases eq_nil_or_concat' events with rfl | ⟨before, last, rfl⟩
  · rfl
  · have hlast : ((before ++ [last]).getLast?.map (·.seq)).getD 0 = last.seq := by simp
    rw [hlast]
    by_cases hpos : 0 < last.seq
    · rw [filter_append, filter_cons_of_pos (by simpa using hpos)]
      simp [MissionEvent.shown]
    · have hnone : (before ++ [last]).filter (0 < ·.seq) = [] := by
        rw [filter_eq_nil_iff]
        intro e he
        obtain hbefore | hself := mem_append.mp he
        · have hle := (pairwise_append.mp h).2.2 e hbefore last mem_cons_self
          simp only [decide_eq_true_eq]
          omega
        · rw [mem_singleton.mp hself]
          simpa using hpos
      rw [hnone]
      simpa using hpos

theorem snapshot_lastSeq : (buildOfficeSnapshot now eventSummary missionId record).lastSeq =
    some (((normalizeEvents now eventSummary record.events 0).getLast?.map (·.seq)).getD 0) :=
  congrArg some (lastSeq_of_sorted now eventSummary (sortEvents_sorted record.events))

/-- The office of a mission that has ended is settled just when no wave has left the observer at its errand. -/
theorem office_finished_iff (hterminal : Terminal record.statusText) :
    Finished now eventSummary missionId record ↔ ObserverRecalled (sortEvents record.events) := by
  rw [← snapshot_rest_iff now eventSummary missionId record hterminal]
  exact ⟨Finished.rest, fun hrest => ⟨hrest, snapshot_lead now eventSummary missionId record, board_done record,
    snapshot_timeline now eventSummary missionId record, snapshot_lastSeq now eventSummary missionId record⟩⟩

end Shown

/-- The observer leads the last of two waves. -/
def observedMission : MissionRecord where
  status := some "completed"
  missionLead := some "observer"
  events :=
    [{ seq := 1, kind := some "mission_created" },
      { seq := 3, kind := some "task_wave_executed", data := { missionLead := some "observer" } },
      { seq := 2, kind := some "task_wave_executed", data := { missionLead := some "performance" } },
      { seq := 4, kind := some "mission_completed" }]
  artifacts := [("evidence", 2)]

theorem finished_observedMission : Finished "12:00" (fun kind _ => kind) "m" observedMission :=
  (office_finished_iff "12:00" (fun kind _ => kind) "m" observedMission (by decide)).mpr (by decide)

/-- One wave was led by another agent, and the mission was completed. -/
theorem observer_unsettled :
    let record : MissionRecord :=
      { status := some "completed", missionLead := some "performance",
        events :=
          [{ seq := 1, kind := some "mission_created" },
            { seq := 2, kind := some "task_wave_executed", data := { missionLead := some "performance" } },
            { seq := 3, kind := some "mission_completed" }] }
    Terminal record.statusText ∧ ¬Finished "12:00" (fun kind _ => kind) "m" record := by
  refine ⟨by decide, fun hfinished => ?_⟩
  have hrest := hfinished.rest
  revert hrest
  decide +kernel

end SelericSwarm.Office
