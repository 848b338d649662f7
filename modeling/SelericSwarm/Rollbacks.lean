import SelericSwarm.ApprovalSteps
import SelericSwarm.Identifiers

/-! Compensation of executed actions: the executor is called first, the record is
filed next, and the status of the approval is looked at last. -/
namespace SelericSwarm
open Keyed Machine

/-- What one call of `rollback` returned or raised, the calls of
`executor.rollback` it made and the record it filed. -/
structure Rollback where
  result : Except ApprovalError (ApprovalRequest × RollbackRecord)
  repository : ApprovalRepository
  invoked : List (Payload × Payload) := []
  filed : Option RollbackRecord := none

/-- `outcome["compensated"]`. -/
def RollbackOutcome.isCompensated : RollbackOutcome → Bool
  | .compensated _ => true
  | .failed _ _ => false

section Calls
variable (lower : String → String)

namespace ActionExecutionService

def originalOutcome (service : ActionExecutionService) (approvalId : String) : Payload :=
  (service.outcomes.get? approvalId).elim .empty Prod.fst

/-- The outcome the record is given: what the executor returned or raised. -/
def compensation (service : ActionExecutionService) (executor : ActionExecutor)
    (approval : ApprovalRequest) : RollbackOutcome :=
  match executor.rollback approval.actionPreview (service.originalOutcome approval.id) with
  | .ok result => .compensated result
  | .error (errorType, error) => .failed errorType error

def rollback (service : ActionExecutionService) (s : ApprovalRepository) (approval : ApprovalRequest)
    (principal : Principal) (recordId : UuidHex) (now : Moment) : Rollback :=
  match service.executors.get? approval.actionType with
  | none => { result := .error (.noExecutor approval.actionType), repository := s }
  | some executor =>
    match s.getRollback approval.id with
    | some existing => { result := .ok (approval, existing), repository := s }
    | none =>
      let call := (approval.actionPreview, service.originalOutcome approval.id)
      let added := s.addRollback {
        id := newId "rollback" recordId, approvalId := approval.id
        actorPrincipalId := principal.principalId, actionType := approval.actionType
        input := approval.actionPreview, originalOutcome := service.originalOutcome approval.id
        outcome := service.compensation executor approval }
      if !(service.compensation executor approval).isCompensated then
        { result := .ok (approval, added.1), repository := added.2, invoked := [call]
          filed := some added.1 }
      else
        let moved := transitionApproval lower added.2 approval .rolledBack principal none false now
        { result := moved.1.map (·, added.1), repository := moved.2, invoked := [call]
          filed := some added.1 }

/-- The call comes to `executor.rollback`. -/
def compensates (service : ActionExecutionService) (s : ApprovalRepository)
    (approval : ApprovalRequest) : Bool :=
  (service.executors.get? approval.actionType).isSome && (s.getRollback approval.id).isNone

/-- The executor would carry out the compensation. -/
def compensable (service : ActionExecutionService) (approval : ApprovalRequest) : Bool :=
  (service.executors.get? approval.actionType).any fun executor =>
    (service.compensation executor approval).isCompensated

end ActionExecutionService

inductive RollbackStep where
  | other (op : ApprovalOp)
  | rollback (service : ActionExecutionService) (approval : ApprovalRequest) (principal : Principal)
      (recordId : UuidHex) (now : Moment)

namespace RollbackStep

/-- Records get their ids from `uuid4`. -/
def step (s : ApprovalRepository) : RollbackStep → Option ApprovalRepository
  | .other op => op.step lower s
  | .rollback service approval principal recordId now =>
    if (s.rollbacks.get? (newId "rollback" recordId)).isSome then none
    else some (service.rollback lower s approval principal recordId now).repository

/-- The executor is called for an EXECUTED approval only, and an approval whose
compensation is on record is ROLLED_BACK. -/
def lawful (s : ApprovalRepository) : RollbackStep → Bool
  | .other _ => true
  | .rollback service approval principal recordId now =>
    let call := service.rollback lower s approval principal recordId now
    (call.invoked.isEmpty || s.statusOf approval.id = some .executed) &&
      (!call.filed.any (·.outcome.isCompensated) ||
        call.repository.statusOf approval.id = some .rolledBack)

/-- The approval is EXECUTED, and the transition after a successful compensation is let through. -/
def reversible (s : ApprovalRepository) : RollbackStep → Bool
  | .other _ => true
  | .rollback service approval principal _ now =>
    service.compensates s approval → s.statusOf approval.id = some .executed ∧
      (service.compensable approval → approval.status = .executed ∧
        principal.canAccessWorkspace lower approval.workspaceId ∧ !approval.expired now)

def compensates (approvalId : String) (s : ApprovalRepository) : RollbackStep → Bool
  | .other _ => false
  | .rollback service approval _ _ _ =>
    service.compensates s approval && service.compensable approval && approval.id = approvalId

end RollbackStep

variable {s s' : ApprovalRepository} {approval : ApprovalRequest}

theorem getRollback_isSome {approvalId : String} :
    (s.getRollback approvalId).isSome ↔ ∃ record ∈ s.rollbacks.rows, record.approvalId = approvalId := by
  simp [ApprovalRepository.getRollback, List.find?_isSome]

def ApprovalRepository.filing (s : ApprovalRepository) (record : RollbackRecord) :
    ApprovalRepository :=
  { s with rollbacks := s.rollbacks.put record }

@[simp] theorem statusOf_filing (s : ApprovalRepository) (record : RollbackRecord)
    (approvalId : String) : (s.filing record).statusOf approvalId = s.statusOf approvalId := rfl

theorem addRollback_of_fresh {record : RollbackRecord} (h : s.rollbacks.get? record.id = none) :
    s.addRollback record = (record, s.filing record) := by
  simp [ApprovalRepository.addRollback, ApprovalRepository.filing, Table.setdefault_of_none h]

theorem transitionApproval_rollbacks (s : ApprovalRepository) (approval : ApprovalRequest)
    (target : ApprovalStatus) (principal : Principal) (reason : Option String)
    (allowWriteActions : Bool) (moment : Moment) :
    (transitionApproval lower s approval target principal reason allowWriteActions
      moment).2.rollbacks = s.rollbacks := by
  obtain ⟨error, he⟩ | ⟨current, reached, -, -, -, he⟩ :=
    transitionApproval_cases lower s approval target principal reason allowWriteActions moment <;>
  rw [he]
  rfl

theorem rollbackRefusal_none_iff {principal : Principal} {now : Moment} (hstatus : approval.status = .executed) :
    transitionRefusal lower approval .rolledBack principal false now = none ↔
      principal.canAccessWorkspace lower approval.workspaceId = true ∧
        approval.expired now = false := by
  cases haccess : principal.canAccessWorkspace lower approval.workspaceId <;>
    cases hexpired : approval.expired now <;>
    simp [transitionRefusal, ApprovalRequest.reached, ApprovalStatus.transitions, haccess, hexpired,
      hstatus]

theorem rolledBack_iff {principal : Principal} {now : Moment} (hstored : s.statusOf approval.id = some .executed) :
    (transitionApproval lower s approval .rolledBack principal none false now).2.statusOf approval.id =
        some .rolledBack ↔
      approval.status = .executed ∧ principal.canAccessWorkspace lower approval.workspaceId = true ∧
        approval.expired now = false := by
  by_cases hstatus : approval.status = .executed
  · rw [← rollbackRefusal_none_iff lower hstatus, transitionApproval_eq]
    cases hr : transitionRefusal lower approval .rolledBack principal false now with
    | some error => simp [hstored]
    | none =>
      have hedge := reached_mem_transitions lower hr
      rw [hstatus, ApprovalStatus.transitions, List.mem_singleton] at hedge
      rw [hedge]
      simp [hstored, hstatus, ApprovalRequest.decided]
  · have hchanged : s.statusOf approval.id ≠ some approval.status := by
      rw [hstored]
      simpa [eq_comm] using hstatus
    rw [transitionApproval_of_changed lower hchanged, hstored]
    simp [hstatus]

theorem rollback_of_not_compensates {service : ActionExecutionService} (h : service.compensates s approval = false)
    (principal : Principal) (recordId : UuidHex) (now : Moment) :
    let call := service.rollback lower s approval principal recordId now
    call.invoked = [] ∧ call.filed = none ∧ call.repository = s := by
  unfold ActionExecutionService.rollback
  split
  · exact ⟨rfl, rfl, rfl⟩
  next executor hexec =>
    split
    · exact ⟨rfl, rfl, rfl⟩
    next hnone => simp [ActionExecutionService.compensates, hexec, hnone] at h

theorem rollback_of_compensates {service : ActionExecutionService} (h : service.compensates s approval = true)
    (principal : Principal) {recordId : UuidHex} (hfresh : s.rollbacks.get? (newId "rollback" recordId) = none)
    (now : Moment) : let call := service.rollback lower s approval principal recordId now
    call.invoked ≠ [] ∧ ∃ record, call.filed = some record ∧
      record.id = newId "rollback" recordId ∧ record.approvalId = approval.id ∧
      record.outcome.isCompensated = service.compensable approval ∧
      call.repository =
        if service.compensable approval then
          (transitionApproval lower (s.filing record) approval .rolledBack principal none false now).2
        else s.filing record := by
  obtain ⟨hexec, hnone⟩ := Bool.and_eq_true_iff.mp h
  obtain ⟨executor, hexec⟩ := Option.isSome_iff_exists.mp hexec
  have hnone : s.getRollback approval.id = none := by simpa using hnone
  have hcompensable : service.compensable approval =
      (service.compensation executor approval).isCompensated := by
    simp [ActionExecutionService.compensable, hexec]
  simp only [ActionExecutionService.rollback, hexec, hnone, hcompensable]
  rw [addRollback_of_fresh (by exact hfresh)]
  cases hc : (service.compensation executor approval).isCompensated with
  | false => exact ⟨by simp, _, rfl, rfl, rfl, hc, rfl⟩
  | true => exact ⟨by simp, _, rfl, rfl, rfl, hc, rfl⟩

theorem lawful_iff_reversible {a : RollbackStep} (h : a.step lower s = some s') :
    a.lawful lower s ↔ a.reversible lower s := by
  cases a with
  | other op => exact Iff.rfl
  | rollback service approval principal recordId now =>
    simp only [RollbackStep.step] at h
    split at h
    · cases h
    next hfresh =>
      have hfresh : s.rollbacks.get? (newId "rollback" recordId) = none := by simpa using hfresh
      simp only [RollbackStep.lawful, RollbackStep.reversible, decide_eq_true_eq]
      cases hcomp : service.compensates s approval with
      | false =>
        obtain ⟨hinvoked, hfiled, -⟩ :=
          rollback_of_not_compensates lower hcomp principal recordId now
        simp [hinvoked, hfiled]
      | true =>
        obtain ⟨hinvoked, record, hfiled, -, -, hrecord, hrepository⟩ :=
          rollback_of_compensates lower hcomp principal hfresh now
        have hempty : (service.rollback lower s approval principal recordId now).invoked.isEmpty =
            false := by simpa using hinvoked
        simp only [hempty, hfiled, Option.any_some, hrecord, hrepository, Bool.false_or]
        by_cases hstored : s.statusOf approval.id = some .executed
        · have hfiling := (statusOf_filing s record approval.id).trans hstored
          have hiff : (transitionApproval lower (s.filing record) approval .rolledBack principal none
              false now).2.statusOf approval.id = some .rolledBack ↔ _ := rolledBack_iff lower hfiling
          cases hcan : service.compensable approval with
          | false => simp [hstored]
          | true => simp [hstored, hiff]
        · simp [hstored]

theorem rollbacks_of_changes (h : Relation.ReflTransGen ApprovalChange s s') : s'.rollbacks = s.rollbacks := by
  induction h with
  | refl => rfl
  | tail _ hlast ih =>
    rw [← ih]
    cases hlast <;> rfl

theorem getRollback_filing {record : RollbackRecord} (hfresh : s.rollbacks.get? record.id = none)
    (approvalId : String) :
    ((s.filing record).getRollback approvalId).isSome ↔
      (s.getRollback approvalId).isSome ∨ record.approvalId = approvalId := by
  simp only [getRollback_isSome, ApprovalRepository.filing, Table.put_rows_of_none hfresh]
  constructor
  · intro h
    obtain ⟨other, hother, hid⟩ := h
    obtain hother | hother := List.mem_append.mp hother
    · exact Or.inl ⟨other, hother, hid⟩
    · exact Or.inr (List.mem_singleton.mp hother ▸ hid)
  · intro h
    obtain ⟨other, hother, hid⟩ | hid := h
    · exact ⟨other, List.mem_append_left _ hother, hid⟩
    · exact ⟨record, by simp, hid⟩

/-- How many compensations the records still leave room for. -/
def ApprovalRepository.unrolled (approvalId : String) (s : ApprovalRepository) : Nat :=
  if (s.getRollback approvalId).isSome then 0 else 1

/-- A compensation files the record that answers every later call. -/
theorem step_unrolled {a : RollbackStep} (approvalId : String) (h : a.step lower s = some s') :
    (if a.compensates approvalId s then 1 else 0) + s'.unrolled approvalId ≤
      s.unrolled approvalId := by
  unfold ApprovalRepository.unrolled
  cases a with
  | other op =>
    have hsame := rollbacks_of_changes (ApprovalOp.step_changes lower h)
    simp [RollbackStep.compensates, ApprovalRepository.getRollback, hsame]
  | rollback service approval principal recordId now =>
    simp only [RollbackStep.step] at h
    split at h
    · cases h
    next hfresh =>
      have hfresh : s.rollbacks.get? (newId "rollback" recordId) = none := by simpa using hfresh
      cases h
      cases hcomp : service.compensates s approval with
      | false =>
        obtain ⟨-, -, hrepository⟩ := rollback_of_not_compensates lower hcomp principal recordId now
        simp [RollbackStep.compensates, hcomp, hrepository]
      | true =>
        obtain ⟨-, record, -, hid, hrecord, -, hrepository⟩ :=
          rollback_of_compensates lower hcomp principal hfresh now
        have hsame : ((service.rollback lower s approval principal recordId now).repository.getRollback
            approvalId).isSome ↔ (s.getRollback approvalId).isSome ∨ record.approvalId = approvalId := by
          rw [← getRollback_filing (hid ▸ hfresh), hrepository]
          split
          · simp only [ApprovalRepository.getRollback, transitionApproval_rollbacks]
          · rfl
        have hnone : (s.getRollback approval.id).isSome = false := by
          simpa using (Bool.and_eq_true_iff.mp hcomp).2
        simp only [hsame, hrecord, RollbackStep.compensates, hcomp, Bool.true_and]
        by_cases hthis : approval.id = approvalId
        · subst hthis
          simp only [hnone, or_true, if_true, Bool.false_eq_true, if_false]
          split <;> omega
        · simp [hthis]

theorem compensated_at_most_once (approvalId : String) (s : ApprovalRepository)
    (steps : List RollbackStep) :
    occurrences (RollbackStep.step lower) (fun s a => a.compensates approvalId s) s steps ≤ 1 := by
  have hle : occurrences (RollbackStep.step lower) (fun s a => a.compensates approvalId s) s steps ≤
      s.unrolled approvalId := by
    refine occurrences_le (I := fun _ => True) ?_ steps s trivial
    intro s a s' _ h
    exact ⟨trivial, step_unrolled lower approvalId h⟩
  have hunrolled : s.unrolled approvalId ≤ 1 := by
    unfold ApprovalRepository.unrolled
    split <;> omega
  exact hle.trans hunrolled

/-- Every rollback of a run is lawful, and none succeeds twice, exactly when every
rollback that reaches the executor finds an approval that can be rolled back. -/
theorem rollbacks_lawful_iff {s s' : ApprovalRepository} {steps : List RollbackStep}
    (h : exec (RollbackStep.step lower) s steps = some s') :
    (Along (RollbackStep.step lower) (fun s a => a.lawful lower s) s steps ∧
      ∀ approvalId, occurrences (RollbackStep.step lower)
        (fun s a => a.compensates approvalId s) s steps ≤ 1) ↔
    Along (RollbackStep.step lower) (fun s a => a.reversible lower s) s steps := by
  rw [along_congr (fun _ _ _ ha => lawful_iff_reversible lower ha) h]
  exact and_iff_left fun approvalId => compensated_at_most_once lower approvalId s steps

end Calls

def executedWrite : ApprovalRequest := {
  id := "approval_1", workspaceId := "w", ownerUserId := "u", actionType := "update_bid"
  requiredRole := "approver", status := .executed, idempotencyKey := "k", dryRun := false
  expiresAt := some 5, updatedAt := 0 }

/-- A call of `rollback` at the given time; the executor does not raise. -/
def compensateAt (recordId : UuidHex) (now : Moment) : RollbackStep :=
  .rollback { executors := Dict.empty.set "update_bid" .echo } executedWrite
    { principalId := "p", workspaceId := "w", userId := "u" } recordId now

theorem compensatedLate_not_lawful :
    ¬(Along (RollbackStep.step String.toLower) (fun s a => a.lawful String.toLower s)
        { items := Table.empty.put executedWrite } [compensateAt .nil 6] ∧
      ∀ approvalId, occurrences (RollbackStep.step String.toLower)
        (fun s a => a.compensates approvalId s) { items := Table.empty.put executedWrite }
        [compensateAt .nil 6] ≤ 1) := by
  intro h
  exact absurd h.1 (by decide)

theorem compensatedInTime_lawful :
    Along (RollbackStep.step String.toLower) (fun s a => a.lawful String.toLower s)
        { items := Table.empty.put executedWrite }
        [compensateAt .nil 4, compensateAt (.repeated '1' (by simp)) 6] ∧
      ∀ approvalId, occurrences (RollbackStep.step String.toLower)
        (fun s a => a.compensates approvalId s) { items := Table.empty.put executedWrite }
        [compensateAt .nil 4, compensateAt (.repeated '1' (by simp)) 6] ≤ 1 := by
  have hrun : (exec (RollbackStep.step String.toLower) { items := Table.empty.put executedWrite }
      [compensateAt .nil 4, compensateAt (.repeated '1' (by simp)) 6]).isSome := by decide
  obtain ⟨s, hs⟩ := Option.isSome_iff_exists.mp hrun
  exact (rollbacks_lawful_iff String.toLower hs).mpr (by decide)

end SelericSwarm
