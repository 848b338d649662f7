import Mathlib.Data.List.Basic
import Mathlib.Data.Option.Basic

/-! The agents shown in the office, and how the client folds one event into them. -/
namespace SelericSwarm.Office

inductive AgentOfficeState where
  | offline
  | idle
  | assigned
  | planning
  | thinking
  | working
  | retrievingEvidence
  | toolRunning
  | waitingForAgent
  | waitingForEvidence
  | collaborating
  | reviewing
  | blocked
  | needsAttention
  | handoff
  | completed
  | failed
  deriving DecidableEq

structure OfficeAgent where
  agentId : String
  status : AgentOfficeState := .idle
  missionLead : Bool := false
  waitingOn : Option (List String) := none
  subquestion : Option String := none
  currentAction : Option String := none
  currentArtifact : Option String := none
  error : Option String := none
  lastEventAt : Option String := none
  deriving DecidableEq

/-- What an event says beside its sequence and kind, under the names that the server gives it. -/
structure Metadata where
  missionLead : Option String := none
  intents : Option (List String) := none
  fromAgent : Option String := none
  toAgent : Option String := none
  requestedTarget : Option String := none
  unresolvedQuestion : Option String := none
  agent : Option String := none
  key : Option String := none
  metric : Option String := none
  reason : Option String := none
  error : Option String := none
  decompositionId : Option String := none
  deriving DecidableEq

structure SwarmUIEvent where
  seq : Nat
  timestamp : String
  agentId : Option String := none
  eventType : String
  status : Option AgentOfficeState := none
  summary : Option String := none
  metadata : Metadata := {}
  deriving DecidableEq

/-- The agents by their ids, as the client and the server keep them. -/
abbrev Agents := String → Option OfficeAgent

/-- What is said of one agent; every such patch sets its status. -/
structure Patch where
  status : AgentOfficeState
  missionLead : Bool := false
  subquestion : Option (Option String) := none
  currentAction : Option String := none
  currentArtifact : Option (Option String) := none
  error : Option String := none
  deriving DecidableEq

def Patch.on (p : Patch) (ts : Option String) (a : OfficeAgent) : OfficeAgent :=
  { a with
    status := p.status
    missionLead := p.missionLead || a.missionLead
    subquestion := p.subquestion.getD a.subquestion
    currentAction := p.currentAction <|> a.currentAction
    currentArtifact := p.currentArtifact.getD a.currentArtifact
    error := p.error <|> a.error
    lastEventAt := ts }

/-- The agent that an id names; no agent has the empty one. -/
def named (id : Option String) (k : String) : Prop := id = some k ∧ k ≠ ""

instance (id : Option String) (k : String) : Decidable (named id k) :=
  inferInstanceAs (Decidable (id = some k ∧ k ≠ ""))

/-- `set` of the client and `touch` of the server: an id that names no agent is passed over. -/
def touch (ts : Option String) (id : Option String) (p : Patch) (agents : Agents) : Agents :=
  fun k => (agents k).map fun a => if named id k then p.on ts a else a

def leadToAgent : Option String → Option String
  | none | some "" => none
  | some lead => some (if lead.endsWith "_agent" then lead else lead ++ "_agent")

/-- What `applyEventToAgents` does to `next`, one call after the other. -/
inductive Change where
  | set (id : Option String) (p : Patch)
  | uncrown
  | settle
  deriving DecidableEq

def AgentOfficeState.settles : AgentOfficeState → Bool
  | .working | .thinking | .planning | .reviewing | .handoff | .retrievingEvidence => true
  | _ => false

def Change.on (ts : String) (k : String) : Change → OfficeAgent → OfficeAgent
  | .set id p, a => if named id k then p.on (some ts) a else a
  | .uncrown, a => { a with missionLead := false }
  | .settle, a => if a.status.settles then { a with status := .completed, currentAction := none } else a

def Change.run (ts : String) (agents : Agents) : Change → Agents
  | .set id p => touch (some ts) id p agents
  | .uncrown => fun k => (agents k).map fun a => { a with missionLead := false }
  | .settle => fun k => (agents k).map fun a =>
      if a.status.settles then { a with status := .completed, currentAction := none } else a

/-- The branches of the switch over `ev.eventType`. -/
def SwarmUIEvent.changes (ev : SwarmUIEvent) : List Change :=
  let data := ev.metadata
  match ev.eventType with
  | "mission_started" | "mission_created" =>
    [.set (some "coordinator") { status := .planning, currentAction := some "Planning the investigation" }]
  | "decomposition_created" =>
    [.set (some "coordinator") { status := .planning, currentAction := some "Decomposing the question" }]
  | "decomposition_refined" =>
    [.set (some "coordinator")
      { status := .thinking, currentAction := some (data.reason.getD "Refining decomposition") }]
  | "task_created" =>
    [.set (some "coordinator") { status := .working, currentAction := some "Building the task plan" }]
  | "task_started" =>
    [.set (some "observer_agent") { status := .working, currentAction := some "Gathering metrics" },
      .set (some "anomaly_agent") { status := .working, currentAction := some "Scanning for anomalies" },
      .set (leadToAgent data.missionLead)
        { status := .working, currentAction := some "Leading the investigation wave" }]
  | "agent_started" =>
    let intents := data.intents.getD []
    (if "diagnostic" ∈ intents then
      [.set (some "diagnostic_agent") { status := .working, currentAction := some "Specialist analysis" }] else []) ++
    (if "predictive" ∈ intents then
      [.set (some "prediction_agent") { status := .working, currentAction := some "Forecasting impact" }] else []) ++
    (if "prescriptive" ∈ intents then
      [.set (some "strategy_agent") { status := .working, currentAction := some "Designing interventions" }] else [])
  | "leadership_transferred" =>
    [.uncrown,
      .set (leadToAgent data.fromAgent) { status := .handoff, currentAction := some "Handing off leadership" },
      .set (ev.agentId <|> leadToAgent (data.toAgent <|> data.requestedTarget))
        { status := .working, missionLead := true, subquestion := some data.unresolvedQuestion,
          currentAction := some (data.unresolvedQuestion.getD "Taking mission leadership") }]
  | "skeptic_review_started" =>
    [.set (some "skeptic_agent") { status := .reviewing, currentAction := some "Reviewing the claim" }]
  | "skeptic_pass" =>
    [.set (some "skeptic_agent") { status := .completed, currentAction := some "Verdict: PASS" }]
  | "skeptic_revise" | "skeptic_reject" =>
    [.set (some "skeptic_agent")
      { status := .reviewing,
        currentAction := some (if ev.eventType = "skeptic_revise" then "Verdict: REVISE" else "Verdict: REJECT") },
      .set (some "coordinator") { status := .working, currentAction := some "Planning remediation" }]
  | "remediation_created" =>
    [.set (some "coordinator") { status := .working, currentAction := some "Remediation planned" }]
  | "evidence_requested" =>
    [.set ev.agentId
      { status := .waitingForEvidence,
        currentAction := some ("Waiting on " ++ (data.key <|> data.metric).getD "evidence") }]
  | "evidence_received" =>
    [.set ev.agentId { status := .working, currentAction := some "Evidence in — resuming" }]
  | "task_assigned" =>
    [.set (leadToAgent data.agent <|> data.agent)
      { status := .working, currentAction := some "Working the remediation task" }]
  | "error" | "specialist_error" =>
    [.set (leadToAgent data.agent <|> data.agent)
      { status := .failed, error := some ((data.error <|> ev.summary).getD "error") }]
  | "mission_blocked" =>
    [.set (some "coordinator") { status := .blocked, error := some (data.reason.getD "budget exhausted") }]
  | "mission_completed" => [.settle]
  | _ => []

def applyEventToAgents (agents : Agents) (ev : SwarmUIEvent) : Agents :=
  ev.changes.foldl (Change.run ev.timestamp) agents

/-! Every change is made to each agent by itself. -/

theorem Change.run_apply (ts : String) (agents : Agents) (c : Change) (k : String) :
    c.run ts agents k = (agents k).map (c.on ts k) := by
  cases c <;> rfl

theorem foldl_run_apply (ts : String) (k : String) (cs : List Change) :
    ∀ agents : Agents, cs.foldl (Change.run ts) agents k =
      (agents k).map fun a => cs.foldl (fun a c => c.on ts k a) a := by
  induction cs with
  | nil => simp
  | cons c cs ih =>
    intro agents
    rw [List.foldl_cons, ih, Change.run_apply, Option.map_map]
    rfl

def SwarmUIEvent.onAgent (ev : SwarmUIEvent) (k : String) (a : OfficeAgent) : OfficeAgent :=
  ev.changes.foldl (fun a c => c.on ev.timestamp k a) a

theorem applyEventToAgents_apply (agents : Agents) (ev : SwarmUIEvent) (k : String) :
    applyEventToAgents agents ev k = (agents k).map (ev.onAgent k) :=
  foldl_run_apply ev.timestamp k ev.changes agents

/-- The client's record of agents, keyed by their ids; the last of two under one id stays. -/
def recordOf (agents : List OfficeAgent) : Agents :=
  agents.foldl (fun record a => fun k =>
    if k = a.agentId then some { a with waitingOn := some (a.waitingOn.getD []) } else record k) fun _ => none

end SelericSwarm.Office
