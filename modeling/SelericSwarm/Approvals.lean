import SelericSwarm.Contracts

/-! Human approvals: the approval repository, the legality checks of
`transition_approval`, and the execution service that runs an approved action. -/
namespace SelericSwarm
open Keyed

inductive ApprovalStatus where
  | requested | approved | rejected | expired | cancelled | executed | rolledBack
  deriving DecidableEq, Repr

structure ApprovalRequest where
  id : String
  workspaceId : String
  ownerUserId : String
  actionType : String
  actionPreview : Payload := .empty
  requiredRole : String
  status : ApprovalStatus := .requested
  idempotencyKey : String
  dryRun : Bool := true
  checkpointResumeToken : Option String := none
  expiresAt : Option Moment := none
  updatedAt : Moment

structure ApprovalDecisionEvent where
  approvalId : String
  fromStatus : Option ApprovalStatus := none
  toStatus : ApprovalStatus
  actorPrincipalId : String
  reason : Option String := none

inductive ApprovalError where
  | otherWorkspace
  | notRequester
  | invalidTransition (source target : ApprovalStatus)
  | roleRequired (role : String)
  | unapproved
  | writesDisabled
  | dryRun
  | changed
  | noExecutor (actionType : String)
  | raised (detail : String)
  deriving DecidableEq, Repr

namespace ApprovalStatus

def value : ApprovalStatus → String
  | .requested => "REQUESTED"
  | .approved => "APPROVED"
  | .rejected => "REJECTED"
  | .expired => "EXPIRED"
  | .cancelled => "CANCELLED"
  | .executed => "EXECUTED"
  | .rolledBack => "ROLLED_BACK"

def transitions : ApprovalStatus → List ApprovalStatus
  | .requested => [.approved, .rejected, .expired, .cancelled]
  | .approved => [.executed, .expired, .cancelled]
  | .executed => [.rolledBack]
  | _ => []

end ApprovalStatus

/-- The text of each error; `repr` is Python's `!r` conversion. -/
def ApprovalError.detail (repr : String → String) : ApprovalError → String
  | .otherWorkspace => "approval belongs to another workspace"
  | .notRequester => "only the requester can cancel this approval"
  | .invalidTransition source target =>
    "invalid approval transition " ++ source.value ++ "->" ++ target.value
  | .roleRequired role => "role " ++ repr role ++ " is required"
  | .unapproved => "unapproved actions cannot execute"
  | .writesDisabled => "write actions are disabled"
  | .dryRun => "dry-run approvals cannot execute"
  | .changed => "approval changed concurrently"
  | .noExecutor actionType => "no executor for action type " ++ repr actionType
  | .raised detail => detail

inductive RollbackOutcome where
  | compensated (result : Payload)
  | failed (errorType error : String)

structure RollbackRecord where
  id : String
  approvalId : String
  actorPrincipalId : String
  actionType : String
  input : Payload
  originalOutcome : Payload
  outcome : RollbackOutcome

structure ApprovalRepository where
  items : Table ApprovalRequest.id := .empty
  events : Dict String (List ApprovalDecisionEvent) := .empty
  rollbacks : Table RollbackRecord.id := .empty

namespace ApprovalRepository

def getByIdempotency (s : ApprovalRepository) (workspaceId ownerUserId idempotencyKey : String) :
    Option ApprovalRequest :=
  s.items.rows.find? fun item => item.workspaceId = workspaceId ∧
    item.ownerUserId = ownerUserId ∧ item.idempotencyKey = idempotencyKey

def create (s : ApprovalRepository) (approval : ApprovalRequest) :
    ApprovalRequest × ApprovalRepository :=
  match s.getByIdempotency approval.workspaceId approval.ownerUserId approval.idempotencyKey with
  | some existing => (existing, s)
  | none => (approval,
      { s with
        items := s.items.put approval
        events := s.events.set approval.id [{
          approvalId := approval.id, toStatus := .requested, actorPrincipalId := approval.ownerUserId }] })

def transition (s : ApprovalRepository) (approvalId : String)
    (expectedStatus : ApprovalStatus) (approval : ApprovalRequest) (event : ApprovalDecisionEvent) :
    Option ApprovalRequest × ApprovalRepository :=
  match s.items.get? approvalId with
  | none => (none, s)
  | some current =>
    if current.status ≠ expectedStatus then (none, s)
    else (some approval,
      { s with
        items := s.items.put approval
        events := s.events.set approvalId (s.events.getD approvalId [] ++ [event]) })

def addRollback (s : ApprovalRepository) (record : RollbackRecord) :
    RollbackRecord × ApprovalRepository :=
  let rollbacks := s.rollbacks.setdefault record
  ((rollbacks.get? record.id).getD record, { s with rollbacks })

def getRollback (s : ApprovalRepository) (approvalId : String) : Option RollbackRecord :=
  s.rollbacks.rows.find? fun item => item.approvalId = approvalId

def listDue (s : ApprovalRepository) (now : Moment) : List ApprovalRequest :=
  s.items.rows.filter fun item =>
    item.status ∈ [.requested, .approved] ∧ item.expiresAt.any (· ≤ now)

end ApprovalRepository

section Roles
variable (lower : String → String)

def ApprovalRequest.expired (approval : ApprovalRequest) (moment : Moment) : Bool :=
  approval.expiresAt.any (· ≤ moment)

def transitionApproval (s : ApprovalRepository) (approval : ApprovalRequest) (target : ApprovalStatus)
    (principal : Principal) (reason : Option String) (allowWriteActions : Bool) (moment : Moment) :
    Except ApprovalError ApprovalRequest × ApprovalRepository :=
  if !principal.canAccessWorkspace lower approval.workspaceId then (.error .otherWorkspace, s)
  else if target = .cancelled ∧ principal.userId ≠ approval.ownerUserId ∧ !principal.isAdmin lower then
    (.error .notRequester, s)
  else
    let target :=
      if approval.expired moment ∧ target ∉ [.expired, .cancelled] then .expired else target
    if target ∉ approval.status.transitions then
      (.error (.invalidTransition approval.status target), s)
    else if target ∈ [.approved, .rejected] ∧
        lower approval.requiredRole ∉ principal.roles.map lower ∧ !principal.isAdmin lower then
      (.error (.roleRequired approval.requiredRole), s)
    else if target = .executed ∧ approval.status ≠ .approved then (.error .unapproved, s)
    else if target = .executed ∧ !allowWriteActions then (.error .writesDisabled, s)
    else if target = .executed ∧ approval.dryRun then (.error .dryRun, s)
    else
      let updated := { approval with status := target, updatedAt := moment }
      let event : ApprovalDecisionEvent := {
        approvalId := approval.id, fromStatus := some approval.status, toStatus := target,
        actorPrincipalId := principal.principalId, reason := reason }
      match s.transition approval.id approval.status updated event with
      | (none, s) => (.error .changed, s)
      | (some persisted, s) => (.ok persisted, s)

/-- A side-effect adapter; a call that raises yields the error's text, and for
`rollback` its type too. -/
structure ActionExecutor where
  preview : Payload → Except String Payload
  execute : Payload → String → Except String Payload
  rollback : Payload → Payload → Except (String × String) Payload

/-- Gives back what it is handed. -/
def ActionExecutor.echo : ActionExecutor :=
  ⟨.ok, fun action _ => .ok action, fun _ outcome => .ok outcome⟩

/-- `_outcomes` and `_executed` are written together under one lock. -/
structure ActionExecutionService where
  executors : Dict String ActionExecutor
  outcomes : Dict String (Payload × ApprovalRequest) := .empty
  /-- A checkpoint hook is registered. -/
  checkpointResume : Bool := false

/-- What one call of `execute` returned or raised, what it left behind, and the
calls it made outside: `executor.execute` and the checkpoint hook. -/
structure Execution where
  result : Except ApprovalError (ApprovalRequest × Payload)
  service : ActionExecutionService
  repository : ApprovalRepository
  executed : List (Payload × String) := []
  resumed : List (String × Payload) := []

namespace ActionExecutionService

def dryRun (service : ActionExecutionService) (approval : ApprovalRequest) :
    Except ApprovalError Payload :=
  match service.executors.get? approval.actionType with
  | none => .error (.noExecutor approval.actionType)
  | some executor => (executor.preview approval.actionPreview).mapError .raised

/-- `meanwhile` is what other callers do to the repository while the executor
runs, and `now` the time at which `transition_approval` looks at the clock. -/
def execute (service : ActionExecutionService) (s : ApprovalRepository) (approval : ApprovalRequest)
    (principal : Principal) (allowWriteActions : Bool)
    (meanwhile : ApprovalRepository → ApprovalRepository) (now : Moment) : Execution :=
  if approval.dryRun then
    { result := (service.dryRun approval).map (approval, ·), service := service, repository := s }
  else if approval.status = .executed then
    let known := service.outcomes.get? approval.id
    let flags := ((Dict.empty.set "idempotent" (.bool true)).set "outcome_unavailable"
      (.bool known.isNone) : Payload)
    { result := .ok (approval, flags.update (known.elim .empty Prod.fst))
      service := service, repository := s }
  else match service.executors.get? approval.actionType with
  | none => { result := .error (.noExecutor approval.actionType), service := service, repository := s }
  | some executor =>
    match service.outcomes.get? approval.id with
    | some (outcome, executed) =>
      { result := .ok (executed, outcome), service := service, repository := s }
    | none =>
      let call := (approval.actionPreview, approval.idempotencyKey)
      match executor.execute approval.actionPreview approval.idempotencyKey with
      | .error detail =>
        { result := .error (.raised detail), service := service, repository := meanwhile s
          executed := [call] }
      | .ok outcome =>
        match transitionApproval lower (meanwhile s) approval .executed principal none
          allowWriteActions now with
        | (.error error, s) =>
          { result := .error error, service := service, repository := s, executed := [call] }
        | (.ok executed, s) =>
          { result := .ok (executed, outcome)
            service := { service with
              outcomes := service.outcomes.set approval.id (outcome, executed) }
            repository := s
            executed := [call]
            resumed := executed.checkpointResumeToken.toList.filterMap fun token =>
              if token ≠ "" ∧ service.checkpointResume then some (token, outcome) else none }

end ActionExecutionService

def Granted (s : ApprovalRepository) (approval : ApprovalRequest) (principal : Principal)
    (allowWriteActions : Bool) (moment : Moment) : Prop :=
  (s.items.get? approval.id).any (·.status = .approved) ∧ approval.dryRun = false ∧
    approval.expired moment = false ∧
    principal.canAccessWorkspace lower approval.workspaceId = true ∧ allowWriteActions = true

/-- The call runs the action only under a grant, and otherwise touches neither
the approvals nor the executor. -/
def Guarded (s : ApprovalRepository) (granted : Prop) (call : Execution) : Prop :=
  (call.executed ≠ [] → granted) ∧ (¬granted → call.executed = [] ∧ call.repository = s)

/-- The call is answered before it comes to the executor. -/
def ActionExecutionService.answersAtOnce (service : ActionExecutionService)
    (approval : ApprovalRequest) : Bool :=
  approval.dryRun || approval.status = .executed ||
    (service.executors.get? approval.actionType).isNone ||
    (service.outcomes.get? approval.id).isSome

theorem execute_of_answersAtOnce {service : ActionExecutionService} {approval : ApprovalRequest}
    (h : service.answersAtOnce approval = true) (s : ApprovalRepository) (principal : Principal)
    (allowWriteActions : Bool) (meanwhile : ApprovalRepository → ApprovalRepository) (now : Moment) :
    let call := service.execute lower s approval principal allowWriteActions meanwhile now
    call.executed = [] ∧ call.repository = s := by
  simp only [ActionExecutionService.answersAtOnce, Bool.or_eq_true, decide_eq_true_eq] at h
  unfold ActionExecutionService.execute
  split
  · exact ⟨rfl, rfl⟩
  next hdry =>
    split
    · exact ⟨rfl, rfl⟩
    next hstatus =>
      split
      · exact ⟨rfl, rfl⟩
      next executor hexec =>
        split
        · exact ⟨rfl, rfl⟩
        next hout =>
          simp [hdry, hstatus, hexec, hout] at h

/-- Nothing before the executor looks at the status, the expiry, the principal or the switch. -/
theorem executed_of_not_answersAtOnce {service : ActionExecutionService} {approval : ApprovalRequest}
    (h : service.answersAtOnce approval = false) (s : ApprovalRepository) (principal : Principal)
    (allowWriteActions : Bool) (meanwhile : ApprovalRepository → ApprovalRepository) (now : Moment) :
    (service.execute lower s approval principal allowWriteActions meanwhile now).executed =
      [(approval.actionPreview, approval.idempotencyKey)] := by
  simp only [ActionExecutionService.answersAtOnce, Bool.or_eq_false_iff, decide_eq_false_iff_not] at h
  obtain ⟨⟨⟨hdry, hstatus⟩, hexec⟩, hout⟩ := h
  obtain ⟨executor, hexec⟩ := Option.isSome_iff_exists.mp (by simpa using hexec)
  have hout : service.outcomes.get? approval.id = none := by simpa using hout
  simp only [ActionExecutionService.execute, hdry, hstatus, hexec, hout, Bool.false_eq_true, if_false]
  cases executor.execute approval.actionPreview approval.idempotencyKey with
  | error detail => rfl
  | ok outcome =>
    simp only
    split <;> rfl

/-- The action is guarded exactly when the call is answered at once or the grant is there. -/
theorem execute_guarded_iff (service : ActionExecutionService) (s : ApprovalRepository)
    (approval : ApprovalRequest) (principal : Principal) (allowWriteActions : Bool)
    (meanwhile : ApprovalRepository → ApprovalRepository) (moment now : Moment) :
    Guarded s (Granted lower s approval principal allowWriteActions moment)
      (service.execute lower s approval principal allowWriteActions meanwhile now) ↔
    service.answersAtOnce approval = true ∨ Granted lower s approval principal allowWriteActions moment := by
  constructor
  · intro hg
    by_cases hearly : service.answersAtOnce approval = true
    · exact Or.inl hearly
    · have := executed_of_not_answersAtOnce lower (by simpa using hearly) s principal allowWriteActions
        meanwhile now
      exact Or.inr (hg.1 (by simp [this]))
  · intro h
    obtain hearly | hgranted := h
    · have := execute_of_answersAtOnce lower hearly s principal allowWriteActions meanwhile now
      exact ⟨fun hne => absurd this.1 hne, fun _ => this⟩
    · exact ⟨fun _ => hgranted, fun hne => absurd hgranted hne⟩

end Roles

/-- A request nobody has decided, executed while write actions are switched off. -/
def undecidedCall : ApprovalRequest × Execution :=
  let approval : ApprovalRequest := {
    id := "approval_1", workspaceId := "w", ownerUserId := "u", actionType := "pause_campaign",
    requiredRole := "admin", idempotencyKey := "k", dryRun := false, updatedAt := 0 }
  let service : ActionExecutionService := {
    executors := Dict.empty.set "pause_campaign" .echo }
  (approval, service.execute String.toLower { items := Table.empty.put approval } approval
    { principalId := "p", workspaceId := "w", userId := "u" } false id 0)

theorem undecidedCall_not_guarded :
    ¬Guarded { items := Table.empty.put undecidedCall.1 }
      (Granted String.toLower { items := Table.empty.put undecidedCall.1 } undecidedCall.1
        { principalId := "p", workspaceId := "w", userId := "u" } false 0) undecidedCall.2 := by
  intro h
  have hran : undecidedCall.2.executed.length = 1 := by decide
  obtain ⟨-, -, -, -, hallowed⟩ := h.1 (by
    intro hnil
    rw [hnil] at hran
    cases hran)
  cases hallowed

end SelericSwarm
