import SelericSwarm.OfficeStore

/-! The server's fold of a mission's events into the agents of the office, and the client's, which mirrors it
in between two snapshots. -/
namespace SelericSwarm.Office
open List Option

/-- A persisted event of the control plane. -/
structure MissionEvent where
  seq : Nat
  kind : Option String := none
  legacyKind : Option String := none
  ts : Option String := none
  data : Metadata := {}
  deriving DecidableEq

/-- The persisted mission, as far as the agents depend on it; an artifact bucket holds so many items. -/
structure MissionRecord where
  query : String := ""
  status : Option String := none
  missionLead : Option String := none
  events : List MissionEvent := []
  artifacts : List (String × Nat) := []

/-- Python's `or` between texts that may be missing or empty. -/
def either (a b : Option String) : Option String := if a = none ∨ a = some "" then b else a

def officeAgents : List String :=
  ["coordinator", "observer_agent", "anomaly_agent", "diagnostic_agent", "prediction_agent", "strategy_agent",
    "skeptic_agent", "performance_agent", "commerce_agent", "funnel_agent", "finance_agent", "inventory_agent",
    "procurement_agent", "technical_agent"]

/-- `_lead_to_agent` -/
def leadOf : Option String → Option String
  | none | some "" => none
  | some lead =>
    if lead ∈ officeAgents then some lead
    else if lead ++ "_agent" ∈ officeAgents then some (lead ++ "_agent") else none

def kindToUi : String → Option String
  | "mission_created" => some "mission_started"
  | "mission_completed" => some "mission_completed"
  | "mission_partial" => some "mission_partial"
  | "mission_budget_exhausted" => some "mission_blocked"
  | "mission_cancelled" => some "mission_completed"
  | "mission_failed" => some "error"
  | "mission_accepted" => some "mission_created"
  | "decomposition_created" => some "decomposition_created"
  | "decomposition_refined" => some "decomposition_refined"
  | "task_plan_created" => some "task_created"
  | "task_wave_executed" => some "task_started"
  | "task_specialists_activated" => some "agent_started"
  | "leadership_transfer" => some "leadership_transferred"
  | "leadership_rejected" => some "leadership_transfer_rejected"
  | "claim_proposed" => some "artifact_created"
  | "claim_validated" => some "skeptic_pass"
  | "claim_challenged" => some "skeptic_revise"
  | "claim_rejected" => some "skeptic_reject"
  | "skeptic_gate" => some "skeptic_review_started"
  | "skeptic_pass" => some "skeptic_pass"
  | "skeptic_revise" => some "skeptic_revise"
  | "skeptic_reject" => some "skeptic_reject"
  | "remediation_planned" => some "remediation_created"
  | "remediation_activated" => some "task_assigned"
  | "remediation_round_done" => some "task_completed"
  | "specialist_error" => some "error"
  | "evidence_requested" => some "evidence_requested"
  | "evidence_received" => some "evidence_received"
  | _ => none

def eventAgentAndStatus (kind : String) (data : Metadata) : Option String × Option AgentOfficeState :=
  match kind with
  | "mission_created" => (some "coordinator", some .planning)
  | "decomposition_created" | "decomposition_refined" | "task_plan_created" => (some "coordinator", some .planning)
  | "task_wave_executed" => (leadOf data.missionLead, some .working)
  | "task_specialists_activated" => (some "diagnostic_agent", some .working)
  | "leadership_transfer" => (leadOf (either data.toAgent data.requestedTarget), some .working)
  | "skeptic_gate" => (some "skeptic_agent", some .reviewing)
  | "skeptic_pass" => (some "skeptic_agent", some .completed)
  | "skeptic_revise" | "skeptic_reject" => (some "skeptic_agent", some .reviewing)
  | "remediation_planned" => (some "coordinator", some .working)
  | "remediation_activated" => (either (leadOf data.agent) data.agent, some .working)
  | "specialist_error" => (either (leadOf data.agent) data.agent, some .failed)
  | "evidence_requested" => (either (leadOf (either data.agent data.fromAgent)) data.agent, some .waitingForEvidence)
  | "evidence_received" => (either (leadOf (either data.agent data.toAgent)) data.agent, some .working)
  | "mission_completed" | "mission_partial" | "mission_cancelled" => (some "coordinator", some .completed)
  | "mission_budget_exhausted" => (some "coordinator", some .blocked)
  | _ => (none, none)

section Snapshot
variable (now : String) (eventSummary : String → MissionEvent → String)

/-- The kind under which the event is shown; the fold goes by `kind` alone. -/
def MissionEvent.shownKind (ev : MissionEvent) : String := (either ev.kind ev.legacyKind).getD ""

def MissionEvent.uiType (ev : MissionEvent) : String :=
  (kindToUi ev.shownKind).getD (if ev.shownKind = "" then "unknown" else ev.shownKind)

def MissionEvent.shown (ev : MissionEvent) : SwarmUIEvent where
  seq := ev.seq
  timestamp := (either ev.ts none).getD now
  agentId := (eventAgentAndStatus ev.shownKind ev.data).1
  eventType := ev.uiType
  status := (eventAgentAndStatus ev.shownKind ev.data).2
  summary := some (eventSummary ev.shownKind ev)
  metadata := ev.data

def sortEvents (events : List MissionEvent) : List MissionEvent := events.insertionSort fun a b => a.seq ≤ b.seq

def normalizeEvents (events : List MissionEvent) (afterSeq : Nat) : List SwarmUIEvent :=
  ((sortEvents events).filter (afterSeq < ·.seq)).map (MissionEvent.shown now eventSummary)

/-- What `_apply_event_to_agents` touches, in this order. -/
def MissionEvent.touches (ev : MissionEvent) : List (Option String × Patch) :=
  let data := ev.data
  match ev.kind.getD "" with
  | "mission_created" =>
    [(some "coordinator", { status := .planning, currentAction := some "Planning the investigation" })]
  | "decomposition_created" =>
    [(some "coordinator", { status := .planning, currentAction := some "Decomposing the question" })]
  | "decomposition_refined" =>
    [(some "coordinator",
      { status := .thinking, currentAction := some "Refining decomposition",
        currentArtifact := some data.decompositionId })]
  | "task_plan_created" =>
    [(some "coordinator", { status := .working, currentAction := some "Building the task plan" })]
  | "task_wave_executed" =>
    [(some "observer_agent", { status := .retrievingEvidence, currentAction := some "Gathering metrics" }),
      (some "anomaly_agent", { status := .working, currentAction := some "Scanning for anomalies" }),
      (leadOf data.missionLead, { status := .working, currentAction := some "Leading the investigation wave" })]
  | "task_specialists_activated" =>
    [("diagnostic", "diagnostic_agent"), ("predictive", "prediction_agent"), ("prescriptive", "strategy_agent")].filterMap
      fun (want, agentId) => if want ∈ data.intents.getD [] then
        some (some agentId, { status := .working, currentAction := some "Specialist analysis" }) else none
  | "leadership_transfer" =>
    [(leadOf data.fromAgent, { status := .handoff, currentAction := some "Handing off leadership" }),
      (leadOf (either data.toAgent data.requestedTarget),
        { status := .working, subquestion := some data.unresolvedQuestion,
          currentAction := either data.unresolvedQuestion (some "Taking mission leadership") })]
  | "skeptic_gate" =>
    [(some "skeptic_agent", { status := .reviewing, currentAction := some "Reviewing the claim" })]
  | "skeptic_pass" =>
    [(some "skeptic_agent", { status := .completed, currentAction := some "Verdict: PASS" })]
  | "skeptic_revise" | "skeptic_reject" =>
    [(some "skeptic_agent",
      { status := .reviewing,
        currentAction :=
          some ("Verdict: " ++ if ev.kind = some "skeptic_revise" then "REVISE" else "REJECT") }),
      (some "coordinator", { status := .working, currentAction := some "Planning remediation" })]
  | "remediation_planned" =>
    [(some "coordinator", { status := .working, currentAction := some "Remediation planned" })]
  | "remediation_activated" =>
    [(either (leadOf data.agent) data.agent,
      { status := .working, currentAction := some "Working the remediation task" })]
  | "specialist_error" =>
    [(either (leadOf data.agent) data.agent,
      { status := .failed, error := either data.error (some "specialist error") })]
  | "mission_budget_exhausted" =>
    [(some "coordinator", { status := .blocked, error := either data.reason (some "budget exhausted") })]
  | _ => []

/-- `_apply_event_to_agents` -/
def foldEvent (agents : Agents) (ev : MissionEvent) : Agents :=
  ev.touches.foldl (fun agents t => touch ev.ts t.1 t.2 agents) agents

/-- `_ARTIFACT_BUCKET_OWNER` -/
def bucketOwner : String → Option String
  | "evidence" => some "observer_agent"
  | "anomaly" => some "anomaly_agent"
  | "hypothesis" | "causal" => some "diagnostic_agent"
  | "prediction" => some "prediction_agent"
  | "strategy" => some "strategy_agent"
  | "skeptic" => some "skeptic_agent"
  | _ => none

/-- An idle owner of artifacts has done its work. -/
def overlay (agents : Agents) (bucket : String × Nat) : Agents :=
  fun k => (agents k).map fun a =>
    if bucketOwner bucket.1 = some k ∧ bucket.2 ≠ 0 ∧ a.status = .idle then { a with status := .completed } else a

def blankAgents : Agents :=
  fun k => if k ∈ officeAgents then some { agentId := k, waitingOn := some [] } else none

def Terminal (status : String) : Prop :=
  status ∈ ["completed", "prototype_completed", "partial", "blocked", "failed", "cancelled"]

instance (status : String) : Decidable (Terminal status) := inferInstanceAs (Decidable (status ∈ _))

/-- What a mission that has ended leaves nobody at. -/
def AgentOfficeState.busy : AgentOfficeState → Bool
  | .working | .thinking | .planning | .reviewing | .handoff => true
  | _ => false

def ended (status : String) : AgentOfficeState := if status.endsWith "completed" then .completed else .idle

def MissionRecord.statusText (record : MissionRecord) : String :=
  (either record.status (some "running")).getD ""

/-- The agents of `build_office_snapshot`. -/
def MissionRecord.agents (record : MissionRecord) : Agents :=
  let folded := (sortEvents record.events).foldl foldEvent blankAgents
  let owned := record.artifacts.foldl overlay folded
  let led : Agents := fun k => (owned k).map fun a => { a with missionLead := some k = leadOf record.missionLead }
  if Terminal record.statusText then
    fun k => (led k).map fun a => if a.status.busy then { a with status := ended record.statusText } else a
  else led

def deriveStage (kinds : List String) (status : String) : String :=
  if status ∈ ["completed", "prototype_completed"] then "complete"
  else if status = "failed" then "failed"
  else if status ∈ ["blocked", "partial"] then "blocked"
  else
    let order := [("skeptic_gate", "review"), ("task_specialists_activated", "specialists"),
      ("leadership_transfer", "investigating"), ("task_wave_executed", "investigating"),
      ("task_plan_created", "planning"), ("decomposition_created", "decomposing"), ("mission_created", "intake")]
    ((order.find? (·.1 ∈ kinds)).map (·.2)).getD "intake"

def buildOfficeSnapshot (missionId : String) (record : MissionRecord) : OfficeSnapshot :=
  let events := sortEvents record.events
  { missionId := some missionId
    query := record.query
    status := some record.statusText
    stage := some (deriveStage (events.map MissionEvent.shownKind) record.statusText)
    missionLead := record.missionLead
    leadAgentId := leadOf record.missionLead
    lastSeq := some ((events.getLast?.map (·.seq)).getD 0)
    agents := officeAgents.filterMap record.agents
    timeline := normalizeEvents now eventSummary events 0 }

end Snapshot

/-! The agent that a lead names, on either side. -/

section Names
variable {k : String} {lead : Option String}

theorem endsWith_agent_iff (l : String) : l.endsWith "_agent" = true ↔ "_agent".toList <:+ l.toList := by
  have h : l.endsWith "_agent" = l.toSlice.endsWith "_agent" := rfl
  rw [h, String.Slice.endsWith_string_iff, String.copy_toSlice]

theorem office_endsWith : ∀ a ∈ officeAgents, a ≠ "coordinator" → a.endsWith "_agent" = true := by
  decide +kernel

theorem office_ne_empty : ∀ a ∈ officeAgents, a ≠ "" := by decide

theorem not_endsWith {l : String} (h : l ++ "_agent" ∈ officeAgents) : ¬l.endsWith "_agent" = true := by
  have hnone : ∀ a ∈ officeAgents, ¬("_agent".toList ++ "_agent".toList) <:+ a.toList := by decide
  intro hl
  obtain ⟨t, ht⟩ := (endsWith_agent_iff l).mp hl
  refine hnone _ h ⟨t, ?_⟩
  rw [String.toList_append, ← ht, append_assoc]

theorem named_iff (hk : k ∈ officeAgents) {id : Option String} : named id k ↔ id = some k :=
  and_iff_left (office_ne_empty k hk)

theorem leadToAgent_some {l : String} (h : l ≠ "") :
    leadToAgent (some l) = some (if l.endsWith "_agent" then l else l ++ "_agent") := by
  unfold leadToAgent
  split
  · rename_i heq
    cases heq
  · rename_i heq
    exact absurd (Option.some.inj heq) h
  · rename_i heq
    rw [Option.some.inj heq]

theorem leadOf_some {l : String} (h : l ≠ "") :
    leadOf (some l) = if l ∈ officeAgents then some l
      else if l ++ "_agent" ∈ officeAgents then some (l ++ "_agent") else none := by
  unfold leadOf
  split
  · rename_i heq
    cases heq
  · rename_i heq
    exact absurd (Option.some.inj heq) h
  · rename_i heq
    rw [Option.some.inj heq]

theorem leadOf_of_leadToAgent (hk : k ∈ officeAgents) (h : leadToAgent lead = some k) : leadOf lead = some k := by
  cases lead with
  | none => cases h
  | some l =>
    by_cases hl : l = ""
    · subst hl
      cases h
    · rw [leadToAgent_some hl] at h
      rw [leadOf_some hl]
      have heq := Option.some.inj h
      split at heq
      · rw [if_pos (heq ▸ hk), heq]
      · rename_i hend
        by_cases hmem : l ∈ officeAgents
        · have hcoordinator : l = "coordinator" := by
            by_contra hne
            exact hend (office_endsWith l hmem hne)
          rw [← heq, hcoordinator] at hk
          exact absurd hk (by decide)
        · rw [if_neg hmem, if_pos (heq ▸ hk), heq]

/-- The client has no agent for the coordinator's bare name, and the server's for every other. -/
theorem leadToAgent_of_leadOf (hne : lead ≠ some "coordinator") (h : leadOf lead = some k) :
    leadToAgent lead = some k := by
  cases lead with
  | none => cases h
  | some l =>
    by_cases hl : l = ""
    · subst hl
      cases h
    · rw [leadOf_some hl] at h
      rw [leadToAgent_some hl]
      split at h
      · rename_i hmem
        rw [if_pos (office_endsWith l hmem fun heq => hne (congrArg some heq)), h]
      · split at h
        · rename_i hagent
          rw [if_neg (not_endsWith hagent), h]
        · cases h

theorem leadToAgent_iff (hk : k ∈ officeAgents) (hne : lead ≠ some "coordinator") :
    leadToAgent lead = some k ↔ leadOf lead = some k :=
  ⟨leadOf_of_leadToAgent hk, leadToAgent_of_leadOf hne⟩

theorem leadOf_mem (hk : k ∈ officeAgents) : leadOf (some k) = some k := by
  rw [leadOf_some (office_ne_empty k hk), if_pos hk]

theorem leadOf_ne_empty : leadOf lead ≠ some "" := by
  intro h
  unfold leadOf at h
  split at h
  · cases h
  · cases h
  · split at h
    · rename_i hmem
      exact office_ne_empty _ hmem (Option.some.inj h)
    · split at h
      · rename_i hmem
        exact office_ne_empty _ hmem (Option.some.inj h)
      · cases h

theorem either_leadOf (hk : k ∈ officeAgents) : either (leadOf lead) lead = some k ↔ leadOf lead = some k := by
  unfold either
  split
  · rename_i hnone
    have hleadOf := hnone.resolve_right leadOf_ne_empty
    rw [hleadOf]
    refine ⟨fun h => ?_, fun h => by cases h⟩
    rw [h, leadOf_mem hk] at hleadOf
    cases hleadOf
  · rfl

theorem orElse_leadToAgent (hk : k ∈ officeAgents) (hne : lead ≠ some "coordinator") :
    (leadToAgent lead).or lead = some k ↔ leadOf lead = some k := by
  rw [← leadToAgent_iff hk hne]
  cases h : leadToAgent lead with
  | none =>
    refine ⟨fun heq => ?_, fun heq => by cases heq⟩
    have hlead : lead = some k := by simpa using heq
    rw [hlead, leadToAgent_some (office_ne_empty k hk)] at h
    cases h
  | some l => simp

theorem transfer_iff (hk : k ∈ officeAgents) (target requested : Option String) :
    (leadOf (either target requested)).or (leadToAgent (target.or requested)) = some k ↔
      leadOf (either target requested) = some k := by
  cases h : leadOf (either target requested) with
  | some l => simp
  | none =>
    refine ⟨fun heq => ?_, fun heq => by cases heq⟩
    have hclient : leadToAgent (target.or requested) = some k := by simpa using heq
    have hserver := leadOf_of_leadToAgent hk hclient
    cases target with
    | none =>
      have heither : either none requested = requested := rfl
      rw [heither] at h
      exact absurd hserver (by simp [h])
    | some l =>
      by_cases hl : l = ""
      · subst hl
        cases hclient
      · have heither : either (some l) requested = some l := by simp [either, hl]
        rw [heither] at h
        exact absurd hserver (by simp [h])

end Names

/-! What an event makes of one agent's status, and of whether it leads. -/

section OneAgent
variable (k : String)

def Change.onStatus : Change → AgentOfficeState → AgentOfficeState
  | .set id p, st => if named id k then p.status else st
  | .uncrown, st => st
  | .settle, st => if st.settles then .completed else st

def Change.onLead : Change → Bool → Bool
  | .set id p, b => if named id k then p.missionLead || b else b
  | .uncrown, _ => false
  | .settle, b => b

def SwarmUIEvent.onStatus (ev : SwarmUIEvent) (st : AgentOfficeState) : AgentOfficeState :=
  ev.changes.foldl (fun st c => c.onStatus k st) st

def SwarmUIEvent.onLead (ev : SwarmUIEvent) (b : Bool) : Bool := ev.changes.foldl (fun b c => c.onLead k b) b

def MissionEvent.onStatus (ev : MissionEvent) (st : AgentOfficeState) : AgentOfficeState :=
  ev.touches.foldl (fun st t => if named t.1 k then t.2.status else st) st

variable {k}

theorem foldl_on_status (ts : String) (cs : List Change) : ∀ a : OfficeAgent,
    (cs.foldl (fun a c => c.on ts k a) a).status = cs.foldl (fun st c => c.onStatus k st) a.status ∧
      (cs.foldl (fun a c => c.on ts k a) a).missionLead = cs.foldl (fun b c => c.onLead k b) a.missionLead := by
  induction cs with
  | nil => exact fun _ => ⟨rfl, rfl⟩
  | cons c cs ih =>
    intro a
    have hone : (c.on ts k a).status = c.onStatus k a.status ∧ (c.on ts k a).missionLead = c.onLead k a.missionLead := by
      cases c with
      | set id p => by_cases h : named id k <;> simp [Change.on, Change.onStatus, Change.onLead, Patch.on, h]
      | uncrown => exact ⟨rfl, rfl⟩
      | settle => by_cases h : a.status.settles = true <;> simp [Change.on, Change.onStatus, Change.onLead, h]
    rw [foldl_cons, foldl_cons, foldl_cons, (ih _).1, (ih _).2, hone.1, hone.2]
    exact ⟨rfl, rfl⟩

theorem foldl_applyEvent (es : List SwarmUIEvent) : ∀ agents : Agents,
    (es.foldl applyEventToAgents agents k).map (·.status) =
        ((agents k).map (·.status)).map (fun st => es.foldl (fun st e => e.onStatus k st) st) ∧
      (es.foldl applyEventToAgents agents k).map (·.missionLead) =
        ((agents k).map (·.missionLead)).map fun b => es.foldl (fun b e => e.onLead k b) b := by
  induction es with
  | nil =>
    intro agents
    cases h : agents k <;> simp [h]
  | cons e es ih =>
    intro agents
    rw [foldl_cons, (ih _).1, (ih _).2, applyEventToAgents_apply]
    cases agents k with
    | none => exact ⟨rfl, rfl⟩
    | some a =>
      have hone := foldl_on_status (k := k) e.timestamp e.changes a
      exact ⟨congrArg (fun st => some (es.foldl (fun st (e : SwarmUIEvent) => e.onStatus k st) st)) hone.1,
        congrArg (fun b => some (es.foldl (fun b (e : SwarmUIEvent) => e.onLead k b) b)) hone.2⟩

theorem foldEvent_apply (agents : Agents) (ev : MissionEvent) : ∃ f : OfficeAgent → OfficeAgent,
    foldEvent agents ev k = (agents k).map f ∧
      ∀ a, (f a).status = ev.onStatus k a.status ∧ (f a).agentId = a.agentId ∧ (f a).waitingOn = a.waitingOn := by
  unfold foldEvent MissionEvent.onStatus
  induction ev.touches generalizing agents with
  | nil => exact ⟨id, by simp, fun _ => ⟨rfl, rfl, rfl⟩⟩
  | cons t ts ih =>
    obtain ⟨f, hf, hfields⟩ := ih (touch ev.ts t.1 t.2 agents)
    refine ⟨fun a => f (if named t.1 k then t.2.on ev.ts a else a), ?_, fun a => ?_⟩
    · rw [foldl_cons, hf, touch, Option.map_map]
      rfl
    · obtain ⟨hstatus, hid, hwaiting⟩ := hfields (if named t.1 k then t.2.on ev.ts a else a)
      rw [foldl_cons, hstatus, hid, hwaiting]
      by_cases h : named t.1 k <;> simp [h, Patch.on]

theorem touches_status (ev : MissionEvent) : ∀ t ∈ ev.touches,
    t.2.status ≠ .idle ∧ (t.2.status = .retrievingEvidence → t.1 = some "observer_agent") := by
  unfold MissionEvent.touches
  split <;> simp
  rintro a b (⟨-, -, rfl⟩ | ⟨-, -, rfl⟩ | ⟨-, -, rfl⟩) <;> simp

theorem onStatus_cases (ev : MissionEvent) (hne : k ≠ "observer_agent") :
    (∀ st, ev.onStatus k st = st) ∨
      ∃ p, p ≠ .idle ∧ p ≠ .retrievingEvidence ∧ ∀ st, ev.onStatus k st = p := by
  have htouches := touches_status ev
  unfold MissionEvent.onStatus
  revert htouches
  induction ev.touches with
  | nil => exact fun _ => Or.inl fun _ => rfl
  | cons t ts ih =>
    intro htouches
    obtain hid | ⟨p, hidle, hretrieving, hp⟩ := ih fun t' ht' => htouches t' (mem_cons_of_mem t ht')
    · by_cases hnamed : named t.1 k
      · obtain ⟨hidle, hobserver⟩ := htouches t mem_cons_self
        refine Or.inr ⟨t.2.status, hidle, fun hretrieving => ?_, fun st => ?_⟩
        · exact hne (Option.some.inj (hnamed.1.symm.trans (hobserver hretrieving)))
        · rw [foldl_cons, if_pos hnamed, hid]
      · refine Or.inl fun st => ?_
        rw [foldl_cons, if_neg hnamed, hid]
    · exact Or.inr ⟨p, hidle, hretrieving, fun st => by rw [foldl_cons, hp]⟩

end OneAgent

/-! The events that the client folds as the server does. -/

section Mirror
variable (now : String) (eventSummary : String → MissionEvent → String)

/-- The agent that the client looks for under the name that the event gives. -/
def MissionEvent.bareName (ev : MissionEvent) : Option String :=
  match ev.kind.getD "" with
  | "task_wave_executed" => ev.data.missionLead
  | "leadership_transfer" => ev.data.fromAgent
  | "remediation_activated" | "specialist_error" => ev.data.agent
  | _ => none

/-- An event that the server folds does not go by the coordinator's bare name, and from any other the client
makes nothing, save for the observer. -/
def MissionEvent.Mirrored (ev : MissionEvent) : Prop :=
  0 < ev.seq ∧
    if ev.touches = [] then ∀ c ∈ (ev.shown now eventSummary).changes, c.Idle (officeAgents.erase "observer_agent")
    else ev.bareName ≠ some "coordinator"

/-- The end of the mission, which the server's fold leaves to the record's status. -/
def MissionEvent.Settling (ev : MissionEvent) : Prop :=
  0 < ev.seq ∧ ev.touches = [] ∧ ev.uiType = "mission_completed"

/-- Whom a transfer of the leadership names. -/
def MissionEvent.transfer (ev : MissionEvent) : Option (Option String) :=
  if ev.kind = some "leadership_transfer" then some (leadOf (either ev.data.toAgent ev.data.requestedTarget)) else none

variable {now eventSummary} {ev : MissionEvent} {k : String}

theorem kind_of_getD {kind : String} (h : ev.kind.getD "" = kind) (hne : kind ≠ "") :
    ev.kind = some kind ∧ ev.shownKind = kind := by
  have hkind : ev.kind = some kind := by
    cases hk : ev.kind with
    | none =>
      rw [hk] at h
      exact absurd h.symm hne
    | some x =>
      rw [hk] at h
      exact congrArg some h
  refine ⟨hkind, ?_⟩
  rw [MissionEvent.shownKind, hkind, either, if_neg (by simpa using hne)]
  rfl

theorem eventAgentAndStatus_transfer (data : Metadata) : eventAgentAndStatus "leadership_transfer" data =
    (leadOf (either data.toAgent data.requestedTarget), some .working) := rfl

theorem uiType_of_kindToUi {t : String} (h : kindToUi ev.shownKind = some t) : ev.uiType = t := by
  rw [MissionEvent.uiType, h, getD_some]

theorem mirrored_onStatus_folded (hk : k ∈ officeAgents) (hne : k ≠ "observer_agent") (htouches : ev.touches ≠ [])
    (hbare : ev.bareName ≠ some "coordinator") (st : AgentOfficeState) :
    (ev.shown now eventSummary).onStatus k st = ev.onStatus k st := by
  have hobserver : ¬named (some "observer_agent") k := fun h => hne (Option.some.inj h.1).symm
  unfold MissionEvent.onStatus
  unfold MissionEvent.touches MissionEvent.bareName at *
  split at htouches
  case h_16 => exact absurd rfl htouches
  all_goals
    rename_i hget
    obtain ⟨hkind, hshown⟩ := kind_of_getD hget (by decide)
    have hui := congrArg kindToUi hshown
    conv at hui => rhs; whnf
    simp only [hget] at hbare
    simp [SwarmUIEvent.onStatus, SwarmUIEvent.changes, MissionEvent.shown, uiType_of_kindToUi hui, hshown,
      Change.onStatus, hobserver]
  case h_5 => simp only [named_iff hk, leadToAgent_iff hk hbare]
  case h_6 =>
    by_cases hdiagnostic : "diagnostic" ∈ ev.data.intents.getD [] <;>
      by_cases hpredictive : "predictive" ∈ ev.data.intents.getD [] <;>
        by_cases hprescriptive : "prescriptive" ∈ ev.data.intents.getD [] <;>
          simp [hdiagnostic, hpredictive, hprescriptive]
  case h_7 => simp only [eventAgentAndStatus_transfer, named_iff hk, leadToAgent_iff hk hbare, transfer_iff hk]
  case h_13 | h_14 => simp only [named_iff hk, orElse_leadToAgent hk hbare, either_leadOf hk]

theorem idle_onStatus {cs : List Change} (h : ∀ c ∈ cs, c.Idle (officeAgents.erase "observer_agent"))
    (hk : k ∈ officeAgents) (hne : k ≠ "observer_agent") (st : AgentOfficeState) :
    cs.foldl (fun st c => c.onStatus k st) st = st := by
  have hmem : k ∈ officeAgents.erase "observer_agent" := (mem_erase_of_ne hne).mpr hk
  induction cs with
  | nil => rfl
  | cons c cs ih =>
    have hone : c.onStatus k st = st := by
      have hidle := h c mem_cons_self
      cases c with
      | set id p => exact if_neg fun hnamed => hidle (named_present hmem hnamed)
      | uncrown => rfl
      | settle => exact absurd hidle (by decide)
    rw [foldl_cons, hone, ih fun d hd => h d (mem_cons_of_mem c hd)]

theorem mirrored_onStatus (h : ev.Mirrored now eventSummary) (hk : k ∈ officeAgents) (hne : k ≠ "observer_agent")
    (st : AgentOfficeState) : (ev.shown now eventSummary).onStatus k st = ev.onStatus k st := by
  by_cases htouches : ev.touches = []
  · have hidle := h.2
    rw [if_pos htouches] at hidle
    rw [SwarmUIEvent.onStatus, idle_onStatus hidle hk hne, MissionEvent.onStatus, htouches, foldl_nil]
  · have hbare := h.2
    rw [if_neg htouches] at hbare
    exact mirrored_onStatus_folded hk hne htouches hbare st

theorem onLead_of_ne {e : SwarmUIEvent} (h : e.eventType ≠ "leadership_transferred") (b : Bool) : e.onLead k b = b := by
  unfold SwarmUIEvent.onLead SwarmUIEvent.changes
  split
  case h_8 => exact absurd ‹_› h
  all_goals simp [Change.onLead]
  by_cases hdiagnostic : "diagnostic" ∈ e.metadata.intents.getD [] <;>
    by_cases hpredictive : "predictive" ∈ e.metadata.intents.getD [] <;>
      by_cases hprescriptive : "prescriptive" ∈ e.metadata.intents.getD [] <;>
        simp [hdiagnostic, hpredictive, hprescriptive]

theorem folded_uiType (htouches : ev.touches ≠ []) (hkind : ev.kind ≠ some "leadership_transfer") :
    ev.uiType ≠ "leadership_transferred" := by
  unfold MissionEvent.touches at htouches
  split at htouches
  case h_16 => exact absurd rfl htouches
  all_goals
    rename_i hget
    obtain ⟨hkind', hshown⟩ := kind_of_getD hget (by decide)
    have hui := congrArg kindToUi hshown
    conv at hui => rhs; whnf
    simp [uiType_of_kindToUi hui]
  exact absurd hkind' hkind

theorem mirrored_onLead (h : ev.Mirrored now eventSummary) (hk : k ∈ officeAgents) (b : Bool) :
    (ev.shown now eventSummary).onLead k b = (ev.transfer.map fun lead => decide (lead = some k)).getD b := by
  by_cases hkind : ev.kind = some "leadership_transfer"
  · have hshown : ev.shownKind = "leadership_transfer" := (kind_of_getD (by rw [hkind]; rfl) (by decide)).2
    have htarget := transfer_iff hk ev.data.toAgent ev.data.requestedTarget
    have hui : ev.uiType = "leadership_transferred" := uiType_of_kindToUi (congrArg kindToUi hshown)
    simp [SwarmUIEvent.onLead, SwarmUIEvent.changes, MissionEvent.shown, hui, hshown, Change.onLead, MissionEvent.transfer, hkind, named_iff hk, eventAgentAndStatus_transfer]
    exact fun hnone hclient => htarget.mp (by rw [hnone, none_or, hclient])
  · have hui : ev.uiType ≠ "leadership_transferred" := by
      by_cases htouches : ev.touches = []
      · intro hui
        have hidle := h.2
        rw [if_pos htouches] at hidle
        have hmem : Change.uncrown ∈ (ev.shown now eventSummary).changes := by
          unfold SwarmUIEvent.changes
          simp [MissionEvent.shown, hui]
        exact absurd (hidle _ hmem) (by decide)
      · exact folded_uiType htouches hkind
    rw [onLead_of_ne hui, MissionEvent.transfer, if_neg hkind]
    rfl

end Mirror

/-! The agents of a snapshot. -/

section Snapshots
variable {k : String}

def owned (artifacts : List (String × Nat)) (k : String) (st : AgentOfficeState) : AgentOfficeState :=
  if st = .idle ∧ ∃ b ∈ artifacts, bucketOwner b.1 = some k ∧ b.2 ≠ 0 then .completed else st

theorem foldl_foldEvent (events : List MissionEvent) : ∀ agents : Agents, ∃ f : OfficeAgent → OfficeAgent,
    events.foldl foldEvent agents k = (agents k).map f ∧
      ∀ a, (f a).status = events.foldl (fun st e => e.onStatus k st) a.status ∧ (f a).agentId = a.agentId ∧
        (f a).waitingOn = a.waitingOn := by
  induction events with
  | nil => exact fun agents => ⟨id, by simp, fun _ => ⟨rfl, rfl, rfl⟩⟩
  | cons e events ih =>
    intro agents
    obtain ⟨f, hf, hfields⟩ := foldEvent_apply (k := k) agents e
    obtain ⟨g, hg, hfields'⟩ := ih (foldEvent agents e)
    refine ⟨g ∘ f, by rw [foldl_cons, hg, hf, Option.map_map], fun a => ?_⟩
    obtain ⟨hstatus, hid, hwaiting⟩ := hfields' (f a)
    rw [Function.comp_apply, hstatus, hid, hwaiting, (hfields a).1]
    exact ⟨rfl, (hfields a).2⟩

theorem foldl_overlay (artifacts : List (String × Nat)) : ∀ agents : Agents, ∃ f : OfficeAgent → OfficeAgent,
    artifacts.foldl overlay agents k = (agents k).map f ∧
      ∀ a, (f a).status = owned artifacts k a.status ∧ (f a).agentId = a.agentId ∧ (f a).waitingOn = a.waitingOn := by
  induction artifacts with
  | nil => exact fun agents => ⟨id, by simp, fun _ => ⟨by simp [owned], rfl, rfl⟩⟩
  | cons b artifacts ih =>
    intro agents
    obtain ⟨g, hg, hfields⟩ := ih (overlay agents b)
    refine ⟨fun a => g (if bucketOwner b.1 = some k ∧ b.2 ≠ 0 ∧ a.status = .idle then
      { a with status := .completed } else a), ?_, fun a => ?_⟩
    · rw [foldl_cons, hg, overlay, Option.map_map]
      rfl
    · obtain ⟨hstatus, hid, hwaiting⟩ := hfields (if bucketOwner b.1 = some k ∧ b.2 ≠ 0 ∧ a.status = .idle then
        { a with status := .completed } else a)
      rw [hstatus, hid, hwaiting]
      by_cases hb : bucketOwner b.1 = some k ∧ b.2 ≠ 0
      · by_cases hidle : a.status = .idle <;> simp [owned, hb, hidle]
      · have hnot : ¬(bucketOwner b.1 = some k ∧ b.2 ≠ 0 ∧ a.status = .idle) := fun h => hb ⟨h.1, h.2.1⟩
        have hrest : (∃ c ∈ b :: artifacts, bucketOwner c.1 = some k ∧ c.2 ≠ 0) ↔
            ∃ c ∈ artifacts, bucketOwner c.1 = some k ∧ c.2 ≠ 0 := by
          simp only [mem_cons, exists_eq_or_imp, hb, false_or]
        simp only [if_neg hnot, owned, hrest]
        exact ⟨trivial, trivial, trivial⟩

/-- The status under which the record's events leave an agent. -/
def MissionRecord.folded (record : MissionRecord) (k : String) : AgentOfficeState :=
  (sortEvents record.events).foldl (fun st e => e.onStatus k st) .idle

def MissionRecord.finalStatus (record : MissionRecord) (k : String) : AgentOfficeState :=
  let st := owned record.artifacts k (record.folded k)
  if Terminal record.statusText ∧ st.busy then ended record.statusText else st

theorem agents_apply (record : MissionRecord) (hk : k ∈ officeAgents) : ∃ a, record.agents k = some a ∧ a.agentId = k ∧
    a.waitingOn = some [] ∧ a.status = record.finalStatus k ∧
      a.missionLead = decide (leadOf record.missionLead = some k) := by
  obtain ⟨f, hf, hfields⟩ := foldl_foldEvent (k := k) (sortEvents record.events) blankAgents
  obtain ⟨g, hg, hfields'⟩ := foldl_overlay (k := k) record.artifacts ((sortEvents record.events).foldl foldEvent blankAgents)
  have hblank : blankAgents k = some { agentId := k, waitingOn := some [] } := if_pos hk
  rw [hf, hblank] at hg
  obtain ⟨hstatus, hid, hwaiting⟩ := hfields { agentId := k, waitingOn := some [] }
  obtain ⟨hstatus', hid', hwaiting'⟩ := hfields' (f { agentId := k, waitingOn := some [] })
  have hfolded : record.folded k = (sortEvents record.events).foldl (fun st e => e.onStatus k st) .idle := rfl
  rw [hstatus, ← hfolded] at hstatus'
  rw [hid] at hid'
  rw [hwaiting] at hwaiting'
  have hlead : decide (some k = leadOf record.missionLead) = decide (leadOf record.missionLead = some k) := by
    simp only [eq_comm]
  unfold MissionRecord.agents MissionRecord.finalStatus
  split
  · rename_i hterminal
    simp only [hg, map_some, ← hstatus', hterminal, true_and]
    refine ⟨_, rfl, ?_⟩
    split
    · exact ⟨hid', hwaiting', rfl, hlead⟩
    · exact ⟨hid', hwaiting', rfl, hlead⟩
  · rename_i hterminal
    simp only [hg, map_some, ← hstatus', hterminal, false_and, if_false]
    exact ⟨_, rfl, hid', hwaiting', rfl, hlead⟩

theorem agents_none (record : MissionRecord) (hk : k ∉ officeAgents) : record.agents k = none := by
  obtain ⟨f, hf, -⟩ := foldl_foldEvent (k := k) (sortEvents record.events) blankAgents
  obtain ⟨g, hg, -⟩ := foldl_overlay (k := k) record.artifacts ((sortEvents record.events).foldl foldEvent blankAgents)
  have hblank : blankAgents k = none := if_neg hk
  rw [hf, hblank] at hg
  unfold MissionRecord.agents
  split <;> simp [hg]

theorem recordOf_filterMap (agents : Agents) (h : ∀ k a, agents k = some a → a.agentId = k ∧ a.waitingOn.isSome)
    (ids : List String) : recordOf (ids.filterMap agents) k = if k ∈ ids then agents k else none := by
  have hfold : ∀ record : Agents, (ids.filterMap agents).foldl (fun record a => fun k =>
      if k = a.agentId then some { a with waitingOn := some (a.waitingOn.getD []) } else record k) record k =
        if k ∈ ids ∧ (agents k).isSome then agents k else record k := by
    induction ids with
    | nil => simp
    | cons id ids ih =>
      intro record
      cases hid : agents id with
      | none =>
        rw [filterMap_cons_none hid, ih record]
        by_cases hk : k = id
        · simp [hk, hid]
        · simp [hk]
      | some a =>
        rw [filterMap_cons_some hid, foldl_cons, ih]
        obtain ⟨hname, hwaiting⟩ := h id a hid
        obtain ⟨w, hw⟩ := isSome_iff_exists.mp hwaiting
        have hsame : { a with waitingOn := some (a.waitingOn.getD []) } = a := by
          cases a
          simp_all
        by_cases hk : k = id
        · subst hk
          rw [hname] at hsame
          simp [hid, hname, hsame]
        · simp [hk, hname]
  rw [recordOf, hfold]
  cases hk : agents k <;> simp

theorem recordOf_agents (record : MissionRecord) (k : String) :
    recordOf (officeAgents.filterMap record.agents) k = record.agents k := by
  rw [recordOf_filterMap record.agents fun j a hj => ?_]
  · by_cases hk : k ∈ officeAgents
    · rw [if_pos hk]
    · rw [if_neg hk, agents_none record hk]
  · by_cases hmem : j ∈ officeAgents
    · obtain ⟨a', ha', hid, hwaiting, -⟩ := agents_apply record hmem
      obtain rfl := Option.some.inj (hj.symm.trans ha')
      exact ⟨hid, by rw [hwaiting]; rfl⟩
    · rw [agents_none record hmem] at hj
      cases hj

end Snapshots

/-! From a snapshot on, the client's statuses are those of the next snapshot. -/

section Mirroring
variable {now : String} {eventSummary : String → MissionEvent → String} {k : String} {rest : List MissionEvent}

theorem owned_onStatus (ev : MissionEvent) (hne : k ≠ "observer_agent") (artifacts : List (String × Nat))
    (st : AgentOfficeState) : ev.onStatus k (owned artifacts k st) = owned artifacts k (ev.onStatus k st) := by
  obtain hid | ⟨p, hidle, -, hp⟩ := onStatus_cases ev hne
  · rw [hid, hid]
  · rw [hp, hp, owned, if_neg fun h => hidle h.1]

theorem mirrored_foldl (h : ∀ e ∈ rest, e.Mirrored now eventSummary) (hk : k ∈ officeAgents)
    (hne : k ≠ "observer_agent") (artifacts : List (String × Nat)) : ∀ st : AgentOfficeState,
      (rest.map (MissionEvent.shown now eventSummary)).foldl (fun st e => e.onStatus k st) (owned artifacts k st) =
        owned artifacts k (rest.foldl (fun st e => e.onStatus k st) st) := by
  induction rest with
  | nil => exact fun _ => rfl
  | cons e rest ih =>
    intro st
    rw [map_cons, foldl_cons, mirrored_onStatus (h e mem_cons_self) hk hne, owned_onStatus e hne]
    exact ih (fun f hf => h f (mem_cons_of_mem e hf)) (e.onStatus k st)

/-- At the end of the mission the work under way is done. -/
def AgentOfficeState.settled (st : AgentOfficeState) : AgentOfficeState := if st.settles then .completed else st

theorem settling_shown {ev : MissionEvent} (h : ev.Settling) (st : AgentOfficeState) :
    (ev.shown now eventSummary).onStatus k st = st.settled := by
  have hui := h.2.2
  simp [SwarmUIEvent.onStatus, SwarmUIEvent.changes, MissionEvent.shown, hui, Change.onStatus, AgentOfficeState.settled]

theorem settling_folded {ev : MissionEvent} (h : ev.Settling) (st : AgentOfficeState) : ev.onStatus k st = st := by
  rw [MissionEvent.onStatus, h.2.1, foldl_nil]

theorem settled_settled (st : AgentOfficeState) : st.settled.settled = st.settled := by
  cases st <;> rfl

/-- Client and server agree but for work that the end of the mission settles. -/
theorem settling_foldl (h : ∀ e ∈ rest, e.Mirrored now eventSummary ∨ e.Settling) (hk : k ∈ officeAgents)
    (hne : k ≠ "observer_agent") (artifacts : List (String × Nat)) : ∀ st st' : AgentOfficeState,
      st.settled = (owned artifacts k st').settled → st' ≠ .retrievingEvidence →
        ((rest.map (MissionEvent.shown now eventSummary)).foldl (fun st e => e.onStatus k st) st).settled =
            (owned artifacts k (rest.foldl (fun st e => e.onStatus k st) st')).settled ∧
          rest.foldl (fun st e => e.onStatus k st) st' ≠ .retrievingEvidence := by
  induction rest with
  | nil => exact fun _ _ hst hst' => ⟨hst, hst'⟩
  | cons e rest ih =>
    intro st st' hst hst'
    have hrest := ih fun f hf => h f (mem_cons_of_mem e hf)
    rw [map_cons, foldl_cons, foldl_cons]
    obtain hmirrored | hsettling := h e mem_cons_self
    · rw [mirrored_onStatus hmirrored hk hne]
      obtain hid | ⟨p, hidle, hretrieving, hp⟩ := onStatus_cases e hne
      · rw [hid, hid]
        exact hrest st st' hst hst'
      · rw [hp, hp]
        exact hrest p p (by rw [owned, if_neg fun h => hidle h.1]) hretrieving
    · rw [settling_shown hsettling, settling_folded hsettling]
      exact hrest st.settled st' (by rw [settled_settled, hst]) hst'

theorem settling_onLead {ev : MissionEvent} (h : ev.Settling) (b : Bool) :
    (ev.shown now eventSummary).onLead k b = b ∧ ev.transfer = none := by
  have hui : ev.uiType ≠ "leadership_transferred" := by
    rw [h.2.2]
    decide
  refine ⟨onLead_of_ne hui b, if_neg fun hkind => hui ?_⟩
  have hshown : ev.shownKind = "leadership_transfer" := (kind_of_getD (by rw [hkind]; rfl) (by decide)).2
  exact uiType_of_kindToUi (congrArg kindToUi hshown)

theorem lead_foldl (h : ∀ e ∈ rest, e.Mirrored now eventSummary ∨ e.Settling) (hk : k ∈ officeAgents) :
    ∀ lead : Option String,
      (rest.map (MissionEvent.shown now eventSummary)).foldl (fun b e => e.onLead k b) (decide (lead = some k)) =
        decide (Reordering.written MissionEvent.transfer lead rest = some k) := by
  induction rest with
  | nil => exact fun _ => rfl
  | cons e rest ih =>
    intro lead
    have hrest := ih fun f hf => h f (mem_cons_of_mem e hf)
    rw [map_cons, foldl_cons]
    obtain hmirrored | hsettling := h e mem_cons_self
    · rw [mirrored_onLead hmirrored hk]
      cases htransfer : e.transfer with
      | none =>
        have hsame : Reordering.written MissionEvent.transfer lead (e :: rest) =
            Reordering.written MissionEvent.transfer lead rest := by rw [Reordering.written_cons, htransfer]; rfl
        rw [hsame]
        exact hrest lead
      | some target =>
        have htarget : Reordering.written MissionEvent.transfer lead (e :: rest) =
            Reordering.written MissionEvent.transfer target rest := by rw [Reordering.written_cons, htransfer]; rfl
        rw [htarget]
        exact hrest target
    · obtain ⟨hlead, htransfer⟩ := settling_onLead (k := k) hsettling (decide (lead = some k))
      have hsame : Reordering.written MissionEvent.transfer lead (e :: rest) =
          Reordering.written MissionEvent.transfer lead rest := by rw [Reordering.written_cons, htransfer]; rfl
      rw [hlead, hsame]
      exact hrest lead

theorem sortEvents_eq {events : List MissionEvent} (h : events.Pairwise fun a b => a.seq < b.seq) :
    sortEvents events = events :=
  Pairwise.insertionSort_eq (h.imp fun hlt => Nat.le_of_lt hlt)

theorem normalizeEvents_eq (h : rest.Pairwise fun a b => a.seq < b.seq) (hpos : ∀ e ∈ rest, 0 < e.seq) :
    normalizeEvents now eventSummary rest 0 = rest.map (MissionEvent.shown now eventSummary) := by
  rw [normalizeEvents, sortEvents_eq h, filter_eq_self.mpr fun e he => by simpa using hpos e he]

/-- The record is still running and each further event is mirrored, or it has been completed and the last
further event says so. -/
def MissionRecord.Followed (now : String) (eventSummary : String → MissionEvent → String) (record : MissionRecord)
    (rest : List MissionEvent) : Prop :=
  (¬Terminal record.statusText ∧ ∀ e ∈ rest, e.Mirrored now eventSummary) ∨
    record.statusText ∈ ["completed", "prototype_completed"] ∧
      (∀ e ∈ rest, e.Mirrored now eventSummary ∨ e.Settling) ∧ ∃ e ∈ rest.getLast?, e.Settling

theorem MissionRecord.Followed.each {record : MissionRecord} (h : record.Followed now eventSummary rest) :
    ∀ e ∈ rest, e.Mirrored now eventSummary ∨ e.Settling := by
  obtain ⟨-, h⟩ | ⟨-, h, -⟩ := h
  · exact fun e he => Or.inl (h e he)
  · exact h

theorem foldl_ne_retrieving (hne : k ≠ "observer_agent") (events : List MissionEvent) : ∀ st : AgentOfficeState,
    st ≠ .retrievingEvidence → events.foldl (fun st e => e.onStatus k st) st ≠ .retrievingEvidence := by
  induction events with
  | nil => exact fun _ hst => hst
  | cons e events ih =>
    intro st hst
    refine ih (e.onStatus k st) ?_
    obtain hid | ⟨p, -, hretrieving, hp⟩ := onStatus_cases e hne
    · rwa [hid]
    · rwa [hp]

/-- Without the observer's errands, the client settles what the server does. -/
theorem settled_of_ne {st : AgentOfficeState} (h : st ≠ .retrievingEvidence) :
    st.settled = if st.busy then .completed else st := by
  cases st <;> first | rfl | exact absurd rfl h

theorem MissionRecord.Followed.status {record : MissionRecord} (h : record.Followed now eventSummary rest)
    {before : List MissionEvent} (hevents : record.events = before ++ rest)
    (hseq : record.events.Pairwise fun a b => a.seq < b.seq) (hk : k ∈ officeAgents) (hne : k ≠ "observer_agent") :
    (rest.map (MissionEvent.shown now eventSummary)).foldl (fun st e => e.onStatus k st)
        (owned record.artifacts k (before.foldl (fun st e => e.onStatus k st) .idle)) = record.finalStatus k := by
  have hfolded : record.folded k =
      rest.foldl (fun st e => e.onStatus k st) (before.foldl (fun st e => e.onStatus k st) .idle) := by
    rw [MissionRecord.folded, sortEvents_eq hseq, hevents, foldl_append]
  rw [MissionRecord.finalStatus, hfolded]
  obtain ⟨hrunning, hmirrored⟩ | ⟨hcompleted, heach, last, hlast, hsettling⟩ := h
  · rw [mirrored_foldl hmirrored hk hne]
    simp [hrunning]
  · have hterminal : Terminal record.statusText ∧ ended record.statusText = .completed := by
      obtain hstatus | hstatus : record.statusText = "completed" ∨ record.statusText = "prototype_completed" := by
        simpa using hcompleted
      · rw [hstatus]
        decide +kernel
      · rw [hstatus]
        decide +kernel
    have hbefore := foldl_ne_retrieving hne before .idle (by decide)
    obtain ⟨hsettled, hfinal⟩ := settling_foldl heach hk hne record.artifacts
      (owned record.artifacts k (before.foldl (fun st e => e.onStatus k st) .idle)) _ rfl hbefore
    obtain ⟨init, hinit⟩ : ∃ init, rest = init ++ [last] := ⟨rest.dropLast, (dropLast_append_getLast? last hlast).symm⟩
    have hdone (st : AgentOfficeState) :
        ((rest.map (MissionEvent.shown now eventSummary)).foldl (fun st e => e.onStatus k st) st).settled =
          (rest.map (MissionEvent.shown now eventSummary)).foldl (fun st e => e.onStatus k st) st := by
      rw [hinit, map_append, foldl_append, map_singleton, foldl_cons, foldl_nil,
        settling_shown hsettling, settled_settled]
    have howned : owned record.artifacts k
        (rest.foldl (fun st e => e.onStatus k st) (before.foldl (fun st e => e.onStatus k st) .idle)) ≠
          .retrievingEvidence := by
      unfold owned
      split
      · decide
      · exact hfinal
    rw [← hdone, hsettled, settled_of_ne howned]
    simp [hterminal]

/-- Events beyond a snapshot leave the agents but the observer with the statuses, and all with the lead, of
the next snapshot. -/
theorem client_mirrors (now : String) (eventSummary : String → MissionEvent → String) (missionId : String)
    (record : MissionRecord) (before rest : List MissionEvent) (lead : Option String)
    (hevents : record.events = before ++ rest) (hseq : record.events.Pairwise fun a b => a.seq < b.seq)
    (hfollowed : record.Followed now eventSummary rest)
    (hlead : leadOf record.missionLead = Reordering.written MissionEvent.transfer (leadOf lead) rest) :
    let earlier := { record with status := some "running", missionLead := lead, events := before }
    let start := recordOf (buildOfficeSnapshot now eventSummary missionId earlier).agents
    let shown := (normalizeEvents now eventSummary rest 0).foldl applyEventToAgents start
    let whole := recordOf (buildOfficeSnapshot now eventSummary missionId record).agents
    (∀ k, k ≠ "observer_agent" → (shown k).map (·.status) = (whole k).map (·.status)) ∧
      ∀ k, (shown k).map (·.missionLead) = (whole k).map (·.missionLead) := by
  intro earlier start shown whole
  have hrest : rest.Pairwise fun a b => a.seq < b.seq := by
    rw [hevents] at hseq
    exact (pairwise_append.mp hseq).2.1
  have hbefore : before.Pairwise fun a b => a.seq < b.seq := by
    rw [hevents] at hseq
    exact (pairwise_append.mp hseq).1
  have hpos : ∀ e ∈ rest, 0 < e.seq := fun e he => (hfollowed.each e he).elim And.left And.left
  have hshown (k : String) := foldl_applyEvent (k := k) (rest.map (MissionEvent.shown now eventSummary)) start
  have hstart (k : String) : start k = earlier.agents k := recordOf_agents earlier k
  have hwhole (k : String) : whole k = record.agents k := recordOf_agents record k
  have hnormal : shown = (rest.map (MissionEvent.shown now eventSummary)).foldl applyEventToAgents start := by
    rw [← normalizeEvents_eq hrest hpos]
  refine ⟨fun k hne => ?_, fun k => ?_⟩
  · rw [hnormal, (hshown k).1, hstart, hwhole]
    by_cases hk : k ∈ officeAgents
    · obtain ⟨a, ha, -, -, hstatus, -⟩ := agents_apply earlier hk
      obtain ⟨a', ha', -, -, hstatus', -⟩ := agents_apply record hk
      have hearlier : earlier.finalStatus k =
          owned record.artifacts k (before.foldl (fun st e => e.onStatus k st) .idle) := by
        have hstatusText : earlier.statusText = "running" := rfl
        have hrunning : ¬Terminal earlier.statusText := by
          rw [hstatusText]
          decide
        simp only [MissionRecord.finalStatus, hrunning, false_and, if_false, MissionRecord.folded]
        rw [sortEvents_eq hbefore]
      rw [ha, ha', map_some, map_some, map_some, hstatus, hstatus', hearlier,
        hfollowed.status hevents hseq hk hne]
    · rw [agents_none earlier hk, agents_none record hk]
      rfl
  · rw [hnormal, (hshown k).2, hstart, hwhole]
    by_cases hk : k ∈ officeAgents
    · obtain ⟨a, ha, -, -, -, hflag⟩ := agents_apply earlier hk
      obtain ⟨a', ha', -, -, -, hflag'⟩ := agents_apply record hk
      rw [ha, ha', map_some, map_some, map_some, hflag, hflag', hlead,
        ← lead_foldl hfollowed.each hk]
    · rw [agents_none earlier hk, agents_none record hk]
      rfl

/-- The agents are at work when the leadership is transferred, and the mission ends. -/
def completedMission : MissionRecord where
  status := some "completed"
  missionLead := some "funnel"
  events :=
    [{ seq := 1, kind := some "mission_created" },
      { seq := 2, kind := some "task_wave_executed", data := { missionLead := some "performance" } },
      { seq := 3, kind := some "leadership_transfer", data := { fromAgent := some "performance", toAgent := some "funnel" } },
      { seq := 4, kind := some "mission_completed" }]

instance (record : MissionRecord) (rest : List MissionEvent) : Decidable (record.Followed now eventSummary rest) := by
  unfold MissionRecord.Followed MissionEvent.Mirrored MissionEvent.Settling
  infer_instance

theorem client_mirrors_completedMission :
    let text : String → MissionEvent → String := fun kind _ => kind
    let earlier := { completedMission with
      status := some "running", missionLead := some "performance", events := completedMission.events.take 2 }
    let start := recordOf (buildOfficeSnapshot "12:00" text "m" earlier).agents
    let shown := (normalizeEvents "12:00" text (completedMission.events.drop 2) 0).foldl applyEventToAgents start
    let whole := recordOf (buildOfficeSnapshot "12:00" text "m" completedMission).agents
    (∀ k, k ≠ "observer_agent" → (shown k).map (·.status) = (whole k).map (·.status)) ∧
      ∀ k, (shown k).map (·.missionLead) = (whole k).map (·.missionLead) :=
  client_mirrors "12:00" (fun kind _ => kind) "m" completedMission (completedMission.events.take 2)
    (completedMission.events.drop 2) (some "performance") rfl (by decide) (by decide) (by decide)

/-- The coordinator leads the wave, as in every mission of one agent; and a claim is validated. -/
theorem client_diverges :
    let text : String → MissionEvent → String := fun kind _ => kind
    let created : MissionEvent := { seq := 1, kind := some "mission_created" }
    let wave : MissionEvent :=
      { seq := 2, kind := some "task_wave_executed", data := { missionLead := some "coordinator" } }
    let validated : MissionEvent := { seq := 2, kind := some "claim_validated" }
    let running (events : List MissionEvent) : Agents :=
      recordOf (buildOfficeSnapshot "12:00" text "m"
        { status := some "running", missionLead := some "coordinator", events }).agents
    let client (rest : List MissionEvent) : Agents :=
      (normalizeEvents "12:00" text rest 0).foldl applyEventToAgents (running [created])
    (client [wave] "coordinator").map (·.status) = some .planning ∧
      (running [created, wave] "coordinator").map (·.status) = some .working ∧
      (client [validated] "skeptic_agent").map (·.status) = some .completed ∧
      (running [created, validated] "skeptic_agent").map (·.status) = some .idle := by
  decide +kernel

end Mirroring
end SelericSwarm.Office
