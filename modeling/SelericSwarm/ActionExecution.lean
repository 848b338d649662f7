import SelericSwarm.ApprovalSteps

/-! Calls of `execute` by any number of service instances. A call is taken apart
where its executor has returned and the approval is still to be marked EXECUTED. -/
open Option

namespace SelericSwarm
open Keyed Machine

/-- A call whose executor has returned; it holds the lock of its service. -/
structure OpenCall where
  service : Nat
  executors : Dict String ActionExecutor
  approval : ApprovalRequest
  principal : Principal
  allowWriteActions : Bool

structure Services where
  repository : ApprovalRepository
  outcomes : Dict Nat (Dict String (Payload × ApprovalRequest)) := .empty
  calls : Table OpenCall.service := .empty

inductive ServiceStep where
  | other (op : ApprovalOp)
  | invoke (call : OpenCall)
  | settle (service : Nat) (now : Moment)

namespace ApprovalStatus

/-- The approval can no longer be executed. -/
def spent (status : ApprovalStatus) : Bool :=
  status ∉ [requested, approved]

def decidedOn (status : ApprovalStatus) : Bool :=
  status ≠ requested

theorem closed_spent : Closed spent := by
  intro status target hs hedge
  cases status <;> cases target <;> simp_all [spent, transitions]

theorem closed_decidedOn : Closed decidedOn := by
  intro status target _ hedge
  cases status <;> cases target <;> simp_all [decidedOn, transitions]

end ApprovalStatus

def OpenCall.raises (call : OpenCall) : Bool :=
  (call.executors.get? call.approval.actionType).any fun executor =>
    (executor.execute call.approval.actionPreview call.approval.idempotencyKey).toOption.isNone

namespace Services

/-- Service instances that have just started, over approvals of any kind. -/
def start (repository : ApprovalRepository) : Services := { repository }

def instanceOf (s : Services) (call : OpenCall) : ActionExecutionService :=
  { executors := call.executors, outcomes := s.outcomes.getD call.service .empty }

/-- The call comes to `executor.execute`. -/
def invokes (s : Services) (call : OpenCall) : Bool :=
  !(s.instanceOf call).answersAtOnce call.approval && (s.calls.get? call.service).isNone

section Roles
variable (lower : String → String)

def settled (s : Services) (call : OpenCall) (now : Moment) : Execution :=
  (s.instanceOf call).execute lower s.repository call.approval call.principal
    call.allowWriteActions id now

def step (s : Services) : ServiceStep → Option Services
  | .other op => (op.step lower s.repository).map fun repository => { s with repository }
  | .invoke call =>
    if (s.instanceOf call).answersAtOnce call.approval then some s
    -- another thread holds the lock
    else if (s.calls.get? call.service).isSome then none
    else if call.raises then some s
    else some { s with calls := s.calls.put call }
  | .settle service now =>
    (s.calls.get? service).map fun call => {
      repository := (s.settled lower call now).repository
      outcomes := s.outcomes.set service (s.settled lower call now).service.outcomes
      calls := s.calls.erase service }

/-- The executor is called for an approval that is APPROVED and that no other
call is executing, and the transition that follows will be let through. -/
def covered (s : Services) : ServiceStep → Bool
  | .other _ => true
  | .invoke call =>
    s.invokes call → !call.raises ∧ call.approval.status = .approved ∧
      s.repository.statusOf call.approval.id = some .approved ∧
      call.principal.canAccessWorkspace lower call.approval.workspaceId ∧
      ∀ other ∈ s.calls.rows, other.approval.id ≠ call.approval.id
  | .settle service now =>
    (s.calls.get? service).all fun call => call.allowWriteActions || call.approval.expired now

/-- The step calls `executor.execute` for this approval. -/
def executes (approvalId : String) (s : Services) : ServiceStep → Bool
  | .invoke call => s.invokes call && call.approval.id = approvalId
  | _ => false

end Roles
end Services

section Calls
variable (lower : String → String)

theorem execute_repository {service : ActionExecutionService} {approval : ApprovalRequest}
    (h : service.answersAtOnce approval = false)
    (hok : ∀ executor, service.executors.get? approval.actionType = some executor →
      ∃ outcome, executor.execute approval.actionPreview approval.idempotencyKey = .ok outcome)
    (s : ApprovalRepository) (principal : Principal) (allowWriteActions : Bool)
    (meanwhile : ApprovalRepository → ApprovalRepository) (now : Moment) :
    (service.execute lower s approval principal allowWriteActions meanwhile now).repository =
      (transitionApproval lower (meanwhile s) approval .executed principal none allowWriteActions
        now).2 := by
  simp only [ActionExecutionService.answersAtOnce, Bool.or_eq_false_iff, decide_eq_false_iff_not] at h
  obtain ⟨⟨⟨hdry, hstatus⟩, hexec⟩, hout⟩ := h
  obtain ⟨executor, hexec⟩ := isSome_iff_exists.mp (by simpa using hexec)
  obtain ⟨outcome, houtcome⟩ := hok executor hexec
  have hout : service.outcomes.get? approval.id = none := by simpa using hout
  simp only [ActionExecutionService.execute, hdry, hstatus, hexec, hout, houtcome,
    Bool.false_eq_true, if_false]
  split
  next he => rw [he]
  next he => rw [he]

/-- The guards of `transition_approval` let the execution of an approved action through,
and past its expiry they expire it. -/
theorem transitionApproval_executed {s : ApprovalRepository} {approval : ApprovalRequest}
    {principal : Principal} {allowWriteActions : Bool} {now : Moment}
    (hstored : s.statusOf approval.id = some .approved) (hstatus : approval.status = .approved)
    (hdry : approval.dryRun = false)
    (haccess : principal.canAccessWorkspace lower approval.workspaceId = true)
    (hallowed : allowWriteActions = true ∨ approval.expired now = true) :
    ((transitionApproval lower s approval .executed principal none allowWriteActions
      now).2.statusOf approval.id).any ApprovalStatus.spent := by
  have hpassed : transitionRefusal lower approval .executed principal allowWriteActions now = none := by
    by_cases hexpired : approval.expired now = true
    · simp [transitionRefusal, ApprovalRequest.reached, haccess, hexpired, hstatus,
        ApprovalStatus.transitions]
    · have hwrites := hallowed.resolve_right hexpired
      simp [transitionRefusal, ApprovalRequest.reached, haccess, hexpired, hstatus, hwrites, hdry,
        ApprovalStatus.transitions]
  have hedge := reached_mem_transitions lower hpassed
  rw [transitionApproval_eq, hpassed]
  simp only
  rw [if_pos (hstored.trans (congrArg some hstatus.symm)), ApprovalRepository.statusOf_record]
  rw [hstatus] at hedge
  simp only [ApprovalRequest.reached, ApprovalRequest.decided, if_true, any_some] at hedge ⊢
  split <;> rfl

theorem settled_repository {s : Services} {call : OpenCall}
    (h : (s.instanceOf call).answersAtOnce call.approval = false) (hok : call.raises = false)
    (now : Moment) :
    (s.settled lower call now).repository =
      (transitionApproval lower s.repository call.approval .executed call.principal none
        call.allowWriteActions now).2 := by
  refine execute_repository lower h ?_ _ _ _ id now
  intro executor hexec
  have hexec : call.executors.get? call.approval.actionType = some executor := hexec
  cases hr : executor.execute call.approval.actionPreview call.approval.idempotencyKey with
  | error detail => simp [OpenCall.raises, hexec, hr, Except.toOption] at hok
  | ok outcome => exact ⟨outcome, rfl⟩

end Calls

/-- What holds of a call from the moment its executor has returned. -/
structure OpenCall.Ready (lower : String → String) (s : Services) (call : OpenCall) : Prop where
  pending : (s.instanceOf call).answersAtOnce call.approval = false
  returned : call.raises = false
  approved : call.approval.status = .approved
  access : call.principal.canAccessWorkspace lower call.approval.workspaceId = true
  decided : (s.repository.statusOf call.approval.id).any ApprovalStatus.decidedOn

structure Services.Orderly (lower : String → String) (s : Services) : Prop where
  ready : ∀ call ∈ s.calls.rows, call.Ready lower s
  single : ∀ a ∈ s.calls.rows, ∀ b ∈ s.calls.rows, a.approval.id = b.approval.id → a = b

/-- An execution is under way or behind us. -/
def Services.taken (approvalId : String) (s : Services) : Bool :=
  s.calls.rows.any (·.approval.id = approvalId) ||
    (s.repository.statusOf approvalId).any ApprovalStatus.spent

/-- How often the action can still be run. -/
def Services.left (approvalId : String) (s : Services) : Nat :=
  if s.taken approvalId then 0 else 1

section Runs
variable {lower : String → String}

theorem OpenCall.Ready.dryRun {s : Services} {call : OpenCall} (h : call.Ready lower s) :
    call.approval.dryRun = false := by
  have := h.pending
  simp only [ActionExecutionService.answersAtOnce, Bool.or_eq_false_iff] at this
  exact this.1.1.1

theorem settled_statusOf {s : Services} {call : OpenCall} (h : call.Ready lower s)
    {p : ApprovalStatus → Bool} (hp : ApprovalStatus.Closed p) {approvalId : String}
    (hs : (s.repository.statusOf approvalId).any p) (now : Moment) :
    ((s.settled lower call now).repository.statusOf approvalId).any p := by
  rw [settled_repository lower h.pending h.returned]
  exact transitionApproval_statusOf lower hp hs _ _ _ _ _ _

theorem settled_spent {s : Services} {call : OpenCall} (h : call.Ready lower s) {now : Moment}
    (hallowed : call.allowWriteActions = true ∨ call.approval.expired now = true) :
    ((s.settled lower call now).repository.statusOf call.approval.id).any ApprovalStatus.spent := by
  by_cases hspent : (s.repository.statusOf call.approval.id).any ApprovalStatus.spent
  · exact settled_statusOf h ApprovalStatus.closed_spent hspent now
  · have hstored : s.repository.statusOf call.approval.id = some .approved := by
      have hd := h.decided
      cases hst : s.repository.statusOf call.approval.id with
      | none => simp [hst] at hd
      | some status => cases status <;> simp_all [ApprovalStatus.spent, ApprovalStatus.decidedOn]
    rw [settled_repository lower h.pending h.returned]
    exact transitionApproval_executed lower hstored h.approved h.dryRun h.access hallowed

theorem Services.Orderly.other {s : Services} (hs : s.Orderly lower) {repository : ApprovalRepository}
    (h : ∀ p, ApprovalStatus.Closed p → ∀ approvalId, (s.repository.statusOf approvalId).any p →
      (repository.statusOf approvalId).any p) :
    ({ s with repository } : Services).Orderly lower where
  ready := by
    intro call hcall
    obtain ⟨hpending, hreturned, happroved, haccess, hdecided⟩ := hs.ready call hcall
    exact ⟨hpending, hreturned, happroved, haccess, h _ ApprovalStatus.closed_decidedOn _ hdecided⟩
  single := hs.single

theorem Services.Orderly.invoked {s : Services} (hs : s.Orderly lower) {call : OpenCall}
    (hready : call.Ready lower s)
    (hfree : ∀ other ∈ s.calls.rows, other.approval.id ≠ call.approval.id) :
    ({ s with calls := s.calls.put call } : Services).Orderly lower where
  ready := by
    intro other hother
    obtain rfl | hother := Table.mem_put hother
    · exact ⟨hready.pending, hready.returned, hready.approved, hready.access, hready.decided⟩
    · obtain ⟨hpending, hreturned, happroved, haccess, hdecided⟩ := hs.ready other hother
      exact ⟨hpending, hreturned, happroved, haccess, hdecided⟩
  single := by
    intro a ha b hb hab
    obtain hnew | hold := Table.mem_put ha <;> obtain hnew' | hold' := Table.mem_put hb
    · rw [hnew, hnew']
    · subst hnew
      exact absurd hab.symm (hfree b hold')
    · subst hnew'
      exact absurd hab (hfree a hold)
    · exact hs.single a hold b hold' hab

theorem Services.Orderly.settle {s : Services} (hs : s.Orderly lower) {call : OpenCall}
    (hcall : call ∈ s.calls.rows) (now : Moment)
    (outcomes : Dict String (Payload × ApprovalRequest)) :
    ({ repository := (s.settled lower call now).repository
       outcomes := s.outcomes.set call.service outcomes
       calls := s.calls.erase call.service } : Services).Orderly lower where
  ready := by
    intro other hother
    obtain ⟨hother, hne⟩ := Table.mem_erase.mp hother
    obtain ⟨hpending, hreturned, happroved, haccess, hdecided⟩ := hs.ready other hother
    have hinstance : s.outcomes.getD other.service .empty =
        (s.outcomes.set call.service outcomes).getD other.service .empty := by
      rw [Dict.getD_set, if_neg (Ne.symm hne)]
    refine ⟨?_, hreturned, happroved, haccess, ?_⟩
    · simpa [Services.instanceOf, hinstance] using hpending
    · exact settled_statusOf (hs.ready call hcall) ApprovalStatus.closed_decidedOn hdecided now
  single := by
    intro a ha b hb hab
    exact hs.single a (Table.mem_erase.mp ha).1 b (Table.mem_erase.mp hb).1 hab

theorem taken_put {s : Services} {call : OpenCall} {approvalId : String}
    (hlock : s.calls.get? call.service = none) :
    ({ s with calls := s.calls.put call } : Services).taken approvalId =
      (decide (call.approval.id = approvalId) || s.taken approvalId) := by
  simp only [Services.taken, Table.put_rows_of_none hlock, List.any_append, List.any_cons,
    List.any_nil, Bool.or_false]
  cases decide (call.approval.id = approvalId) <;> simp

theorem taken_settle {s : Services} (hs : s.Orderly lower) {call : OpenCall}
    (hcall : call ∈ s.calls.rows) {now : Moment}
    (hallowed : call.allowWriteActions = true ∨ call.approval.expired now = true)
    (outcomes : Dict Nat (Dict String (Payload × ApprovalRequest))) {approvalId : String}
    (h : s.taken approvalId) :
    ({ repository := (s.settled lower call now).repository, outcomes
       calls := s.calls.erase call.service } : Services).taken approvalId := by
  simp only [Services.taken, Bool.or_eq_true, List.any_eq_true] at h ⊢
  have hready := hs.ready call hcall
  obtain ⟨other, hother, hid⟩ | hspent := h
  · by_cases hsame : other.service = call.service
    · have := Table.eq_of_mem hother hcall hsame
      subst this
      exact Or.inr (of_decide_eq_true hid ▸ settled_spent hready hallowed)
    · exact Or.inl ⟨other, Table.mem_erase.mpr ⟨hother, hsame⟩, hid⟩
  · exact Or.inr (settled_statusOf hready ApprovalStatus.closed_spent hspent now)

/-- One covered step keeps the calls in order, and an execution it starts was not
taken before and is taken from then on. -/
theorem step_taken {s s' : Services} {a : ServiceStep} {approvalId : String} (hs : s.Orderly lower)
    (hok : s.covered lower a) (h : s.step lower a = some s') :
    s'.Orderly lower ∧
      (if s.executes approvalId a then 1 else 0) + s'.left approvalId ≤ s.left approvalId := by
  unfold Services.left
  cases a with
  | other op =>
    obtain ⟨repository, hop, rfl⟩ := map_eq_some_iff.mp h
    have hkeep : ∀ p, ApprovalStatus.Closed p → ∀ approvalId,
        (s.repository.statusOf approvalId).any p → (repository.statusOf approvalId).any p :=
      fun p hp approvalId => statusOf_changes hp (ApprovalOp.step_changes lower hop)
    refine ⟨hs.other hkeep, ?_⟩
    have htaken : s.taken approvalId → ({ s with repository } : Services).taken approvalId := by
      simp only [Services.taken, Bool.or_eq_true]
      exact Or.imp_right (hkeep _ ApprovalStatus.closed_spent approvalId)
    by_cases ht : s.taken approvalId
    · simp [Services.executes, ht, htaken ht]
    · simp only [Services.executes, ht, Bool.false_eq_true, if_false]
      split <;> omega
  | invoke call =>
    simp only [Services.step] at h
    split at h
    next hanswered =>
      cases h
      exact ⟨hs, by simp [Services.executes, Services.invokes, hanswered]⟩
    next hanswered =>
      split at h
      · cases h
      next hlock =>
        have hlock : s.calls.get? call.service = none := by simpa using hlock
        have hinvokes : s.invokes call := by simp [Services.invokes, hanswered, hlock]
        have hcovered := of_decide_eq_true hok hinvokes
        obtain ⟨hreturned, happroved, hstored, haccess, hfree⟩ := hcovered
        rw [if_neg (by simpa using hreturned)] at h
        cases h
        have hready : call.Ready lower s := {
          pending := by simpa using hanswered
          returned := by simpa using hreturned
          approved := happroved
          access := haccess
          decided := by simp [hstored, ApprovalStatus.decidedOn] }
        refine ⟨hs.invoked hready hfree, ?_⟩
        rw [taken_put hlock]
        by_cases hid : call.approval.id = approvalId
        · subst hid
          have hfirst : s.taken call.approval.id = false := by
            simp only [Services.taken, Bool.or_eq_false_iff, List.any_eq_false]
            refine ⟨fun other hother => by simpa using hfree other hother, ?_⟩
            simp [hstored, ApprovalStatus.spent]
          simp [Services.executes, hinvokes, hfirst]
        · simp [Services.executes, hid]
  | settle service now =>
    obtain ⟨call, hcall, rfl⟩ := map_eq_some_iff.mp h
    have hkey := Table.key_of_get? hcall
    subst hkey
    have hmem := Table.mem_of_get? hcall
    have hallowed : call.allowWriteActions = true ∨ call.approval.expired now = true := by
      simpa [Services.covered, hcall] using hok
    refine ⟨hs.settle hmem now _, ?_⟩
    by_cases ht : s.taken approvalId
    · simp [Services.executes, ht, taken_settle hs hmem hallowed _ ht]
    · simp only [Services.executes, ht, Bool.false_eq_true, if_false]
      split <;> omega

end Runs

/-- When every step of the run is covered, the action of an approval is run at most once. -/
theorem executed_at_most_once (lower : String → String) (repository : ApprovalRepository)
    (steps : List ServiceStep)
    (h : Along (Services.step lower) (fun s a => s.covered lower a) (.start repository) steps)
    (approvalId : String) :
    occurrences (Services.step lower) (Services.executes approvalId) (.start repository) steps ≤ 1 := by
  have hstart : (Services.start repository).Orderly lower := by
    constructor <;> simp [Services.start]
  have hleft : (Services.start repository).left approvalId ≤ 1 := by
    unfold Services.left
    split <;> omega
  have hle : occurrences (Services.step lower) (Services.executes approvalId) (.start repository)
      steps ≤ (Services.start repository).left approvalId := by
    refine occurrences_le_along (I := Services.Orderly lower) ?_ steps _ hstart h
    intro s a s' hi hok ha
    exact step_taken hi hok ha
  exact hle.trans hleft

def grantedRequest : ApprovalRequest := {
  id := "approval_1", workspaceId := "w", ownerUserId := "u", actionType := "update_bid"
  requiredRole := "approver", idempotencyKey := "k", dryRun := false, updatedAt := 0 }

def bidRequester : Principal := { principalId := "p", workspaceId := "w", userId := "u" }

def bidApprover : Principal := {
  principalId := "q", workspaceId := "w", userId := "v", authenticated := true
  roles := ["approver"] }

def grant : List ServiceStep :=
  [.other (.create grantedRequest),
    .other (.transition grantedRequest .approved bidApprover none false 1)]

/-- The call an API request makes with the copy it has just read. -/
def callWith (status : ApprovalStatus) : OpenCall := {
  service := 0
  executors := Dict.empty.set "update_bid" .echo
  approval := grantedRequest.decided status 1, principal := bidApprover, allowWriteActions := true }

/-- The bidRequester cancels while the executor runs, and the caller tries again. -/
def cancelledMeanwhile : List ServiceStep :=
  grant ++ [.invoke (callWith .approved),
    .other (.transition (grantedRequest.decided .approved 1) .cancelled bidRequester none false 2),
    .settle 0 3, .invoke (callWith .cancelled), .settle 0 4]

theorem executed_twice : ¬(occurrences (Services.step String.toLower)
    (Services.executes "approval_1") (.start {}) cancelledMeanwhile ≤ 1) := by
  decide +kernel

theorem executed_once : occurrences (Services.step String.toLower)
    (Services.executes "approval_1") (.start {}) (grant ++ [.invoke (callWith .approved),
      .settle 0 3, .invoke (callWith .approved), .invoke (callWith .executed)]) ≤ 1 :=
  executed_at_most_once String.toLower {} _ (by decide +kernel) "approval_1"

end SelericSwarm
