import SelericSwarm.Approvals
import SelericSwarm.Machine
import Mathlib.Logic.Relation

/-! What callers may do to the approvals, the expiry sweep among them, and the
one way in which a call can change them. -/
namespace SelericSwarm
open Keyed

/-- No edge of `transitions` leaves these statuses. -/
def ApprovalStatus.Closed (p : ApprovalStatus → Bool) : Prop :=
  ∀ status target, p status → target ∈ status.transitions → p target

/-- The two records are versions of one request. -/
def ApprovalRequest.sameRequest (a b : ApprovalRequest) : Bool :=
  a.id = b.id ∧ a.workspaceId = b.workspaceId ∧ a.ownerUserId = b.ownerUserId ∧
    a.idempotencyKey = b.idempotencyKey

def ApprovalRequest.decided (approval : ApprovalRequest) (status : ApprovalStatus)
    (moment : Moment) : ApprovalRequest :=
  { approval with status := status, updatedAt := moment }

/-- The status a call asks for, once the expiry has been looked at. -/
def ApprovalRequest.reached (approval : ApprovalRequest) (target : ApprovalStatus)
    (moment : Moment) : ApprovalStatus :=
  if approval.expired moment ∧ target ∉ [.expired, .cancelled] then .expired else target

namespace ApprovalRepository

def statusOf (s : ApprovalRepository) (approvalId : String) : Option ApprovalStatus :=
  (s.items.get? approvalId).map ApprovalRequest.status

def record (s : ApprovalRepository) (approval : ApprovalRequest) (event : ApprovalDecisionEvent) :
    ApprovalRepository :=
  { s with
    items := s.items.put approval
    events := s.events.set approval.id (s.events.getD approval.id [] ++ [event]) }

/-- The copy may be out of date, but it is a copy of what is stored under its id. -/
def knows (s : ApprovalRepository) (approval : ApprovalRequest) : Bool :=
  (s.items.get? approval.id).all approval.sameRequest

/-- Approvals get their ids from `uuid4`. -/
def admitsNew (s : ApprovalRepository) (approval : ApprovalRequest) : Bool :=
  (s.getByIdempotency approval.workspaceId approval.ownerUserId approval.idempotencyKey).isSome ||
    (s.items.get? approval.id).isNone

theorem statusOf_eq_some {s : ApprovalRepository} {approvalId : String} {status : ApprovalStatus} :
    s.statusOf approvalId = some status ↔
      ∃ approval, s.items.get? approvalId = some approval ∧ approval.status = status := by
  simp [statusOf]

@[simp] theorem statusOf_record (s : ApprovalRepository) (approval : ApprovalRequest)
    (event : ApprovalDecisionEvent) (approvalId : String) :
    (s.record approval event).statusOf approvalId =
      if approval.id = approvalId then some approval.status else s.statusOf approvalId := by
  by_cases h : approval.id = approvalId <;> simp [statusOf, record, Table.get?_put, h]

theorem any_statusOf_record {p : ApprovalStatus → Bool} (hp : ApprovalStatus.Closed p)
    {s : ApprovalRepository} {approval : ApprovalRequest} {target : ApprovalStatus}
    (hstored : s.statusOf approval.id = some approval.status)
    (hedge : target ∈ approval.status.transitions) (moment : Moment) (event : ApprovalDecisionEvent)
    {approvalId : String} (hs : (s.statusOf approvalId).any p) :
    ((s.record (approval.decided target moment) event).statusOf approvalId).any p := by
  rw [statusOf_record]
  by_cases hid : approval.id = approvalId
  · subst hid
    have hcurrent : p approval.status := by simpa [hstored] using hs
    simpa [ApprovalRequest.decided] using hp _ _ hcurrent hedge
  · simpa [ApprovalRequest.decided, hid] using hs

/-- The compare-and-set. -/
theorem transition_eq (s : ApprovalRepository) (expectedStatus : ApprovalStatus)
    (approval : ApprovalRequest) (event : ApprovalDecisionEvent) :
    s.transition approval.id expectedStatus approval event =
      if s.statusOf approval.id = some expectedStatus then (some approval, s.record approval event)
      else (none, s) := by
  cases hc : s.items.get? approval.id with
  | none => simp [transition, statusOf, hc]
  | some current =>
    by_cases hs : current.status = expectedStatus <;> simp [transition, statusOf, record, hc, hs]

end ApprovalRepository

/-- The changes a single call makes: it files a new request, or it takes the
stored approval one edge along `transitions` and tells of it. -/
inductive ApprovalChange (s : ApprovalRepository) : ApprovalRepository → Prop
  | created {approval : ApprovalRequest} (actor : String)
      (requested : approval.status = .requested)
      (unknown : s.getByIdempotency approval.workspaceId approval.ownerUserId
        approval.idempotencyKey = none)
      (fresh : s.items.get? approval.id = none) :
      ApprovalChange s { s with
        items := s.items.put approval
        events := s.events.set approval.id [{
          approvalId := approval.id, toStatus := .requested, actorPrincipalId := actor }] }
  | decided {approval current : ApprovalRequest} {target : ApprovalStatus} (actor : String)
      (reason : Option String) (moment : Moment)
      (stored : s.items.get? approval.id = some current)
      (copy : approval.sameRequest current)
      (unchanged : current.status = approval.status)
      (edge : target ∈ approval.status.transitions) :
      ApprovalChange s (s.record (approval.decided target moment) {
        approvalId := approval.id, fromStatus := some approval.status, toStatus := target
        actorPrincipalId := actor, reason := reason })

inductive ApprovalOp where
  | create (approval : ApprovalRequest)
  | transition (approval : ApprovalRequest) (target : ApprovalStatus) (principal : Principal)
      (reason : Option String) (allowWriteActions : Bool) (moment : Moment)
  | sweep (moment : Moment)

def approvalExpiry (workspaceId : String) : Principal := {
  principalId := "approval-expiry", workspaceId := workspaceId, userId := "approval-expiry"
  authenticated := true, roles := ["internal"] }

section Steps
variable (lower : String → String)

/-- The loop of `sweep`: an approval that changed meanwhile is passed over, any
other error ends the sweep. -/
def sweepEach (moment : Moment) :
    List ApprovalRequest → Nat → ApprovalRepository → Except ApprovalError Nat × ApprovalRepository
  | [], expired, s => (.ok expired, s)
  | approval :: due, expired, s =>
    match transitionApproval lower s approval .expired (approvalExpiry approval.workspaceId)
      (some "scheduled expiry") false moment with
    | (.ok _, s) => sweepEach moment due (expired + 1) s
    | (.error .changed, s) => sweepEach moment due expired s
    | (.error error, s) => (.error error, s)

def ApprovalRepository.sweep (s : ApprovalRepository) (moment : Moment) :
    Except ApprovalError Nat × ApprovalRepository :=
  sweepEach lower moment (s.listDue moment) 0 s

namespace ApprovalOp

def apply (s : ApprovalRepository) : ApprovalOp → ApprovalRepository
  | .create approval => (s.create approval).2
  | .transition approval target principal reason allow moment =>
    (transitionApproval lower s approval target principal reason allow moment).2
  | .sweep moment => (s.sweep lower moment).2

def fresh (s : ApprovalRepository) : ApprovalOp → Bool
  | .create approval => approval.status = .requested && s.admitsNew approval
  | _ => true

/-- Callers hand over copies of what is stored, old ones included. -/
def copied (s : ApprovalRepository) : ApprovalOp → Bool
  | .transition approval _ _ _ _ _ => s.knows approval
  | _ => true

def step (s : ApprovalRepository) (op : ApprovalOp) : Option ApprovalRepository :=
  if op.fresh s && op.copied s then some (op.apply lower s) else none

end ApprovalOp

/-- The guards that `transition_approval` passes before it comes to the repository. -/
def transitionRefusal (approval : ApprovalRequest) (target : ApprovalStatus) (principal : Principal)
    (allowWriteActions : Bool) (moment : Moment) : Option ApprovalError :=
  let reached := approval.reached target moment
  if !principal.canAccessWorkspace lower approval.workspaceId then some .otherWorkspace
  else if target = .cancelled ∧ principal.userId ≠ approval.ownerUserId ∧ !principal.isAdmin lower then
    some .notRequester
  else if reached ∉ approval.status.transitions then
    some (.invalidTransition approval.status reached)
  else if reached ∈ [.approved, .rejected] ∧
      lower approval.requiredRole ∉ principal.roles.map lower ∧ !principal.isAdmin lower then
    some (.roleRequired approval.requiredRole)
  else if reached = .executed ∧ approval.status ≠ .approved then some .unapproved
  else if reached = .executed ∧ !allowWriteActions then some .writesDisabled
  else if reached = .executed ∧ approval.dryRun then some .dryRun
  else none

variable {approval : ApprovalRequest} {s : ApprovalRepository}

theorem reached_mem_transitions {target : ApprovalStatus} {principal : Principal} {allowWriteActions : Bool}
    {moment : Moment} (h : transitionRefusal lower approval target principal allowWriteActions moment = none) :
    approval.reached target moment ∈ approval.status.transitions := by
  unfold transitionRefusal at h
  extract_lets reached at h
  by_cases hedge : reached ∈ approval.status.transitions
  · exact hedge
  · simp only [hedge, not_false_eq_true, if_true] at h
    split at h
    · cases h
    split at h <;> cases h

theorem guard_eq {c : Prop} [Decidable c] {error : ApprovalError} {raised : Option ApprovalError}
    {checked granted : Except ApprovalError ApprovalRequest × ApprovalRepository}
    (h : checked = raised.elim granted fun error => (.error error, s)) :
    (if c then (.error error, s) else checked) =
      (if c then some error else raised).elim granted fun error => (.error error, s) := by
  split
  · rfl
  · exact h

/-- The guards first, then the compare-and-set on the status the copy carries. -/
theorem transitionApproval_eq (s : ApprovalRepository) (approval : ApprovalRequest)
    (target : ApprovalStatus) (principal : Principal) (reason : Option String)
    (allowWriteActions : Bool) (moment : Moment) :
    transitionApproval lower s approval target principal reason allowWriteActions moment =
      match transitionRefusal lower approval target principal allowWriteActions moment with
      | some error => (.error error, s)
      | none =>
        if s.statusOf approval.id = some approval.status then
          (.ok (approval.decided (approval.reached target moment) moment),
            s.record (approval.decided (approval.reached target moment) moment) {
              approvalId := approval.id, fromStatus := some approval.status
              toStatus := approval.reached target moment
              actorPrincipalId := principal.principalId, reason := reason })
        else (.error .changed, s) := by
  have hcas := s.transition_eq approval.status
    (approval.decided (approval.reached target moment) moment) {
      approvalId := approval.id, fromStatus := some approval.status
      toStatus := approval.reached target moment
      actorPrincipalId := principal.principalId, reason := reason }
  have helim : ∀ (refusal : Option ApprovalError)
      (granted : Except ApprovalError ApprovalRequest × ApprovalRepository), (match refusal with
      | some error => (.error error, s)
      | none => granted) = refusal.elim granted fun error => (.error error, s) := by
    intro refusal granted
    cases refusal <;> rfl
  rw [helim, transitionApproval, transitionRefusal]
  refine guard_eq (guard_eq (guard_eq (guard_eq (guard_eq (guard_eq (guard_eq ?_))))))
  simp only [ApprovalRequest.decided, ApprovalRequest.reached] at hcas ⊢
  rw [hcas]
  by_cases hstored : s.statusOf approval.id = some approval.status
  · simp only [hstored, if_true, Option.elim_none]
  · simp only [hstored, if_false, Option.elim_none]

theorem transitionApproval_of_changed (h : s.statusOf approval.id ≠ some approval.status) (target : ApprovalStatus)
    (principal : Principal) (reason : Option String) (allowWriteActions : Bool) (moment : Moment) :
    (transitionApproval lower s approval target principal reason allowWriteActions moment).2 = s := by
  rw [transitionApproval_eq]
  cases transitionRefusal lower approval target principal allowWriteActions moment with
  | some error => rfl
  | none => simp [h]

/-- Either the call is refused and nothing changes, or it finds the status its
copy carries and takes it one edge on. -/
theorem transitionApproval_cases (s : ApprovalRepository) (approval : ApprovalRequest)
    (target : ApprovalStatus) (principal : Principal) (reason : Option String)
    (allowWriteActions : Bool) (moment : Moment) :
    (∃ error, transitionApproval lower s approval target principal reason allowWriteActions moment =
      (.error error, s)) ∨
    ∃ current reached, s.items.get? approval.id = some current ∧
      current.status = approval.status ∧ reached ∈ approval.status.transitions ∧
      transitionApproval lower s approval target principal reason allowWriteActions moment =
        (.ok (approval.decided reached moment), s.record (approval.decided reached moment) {
          approvalId := approval.id, fromStatus := some approval.status, toStatus := reached
          actorPrincipalId := principal.principalId, reason := reason }) := by
  rw [transitionApproval_eq]
  cases hr : transitionRefusal lower approval target principal allowWriteActions moment with
  | some error => exact Or.inl ⟨error, rfl⟩
  | none =>
    by_cases hs : s.statusOf approval.id = some approval.status
    · obtain ⟨current, hc, hstatus⟩ := ApprovalRepository.statusOf_eq_some.mp hs
      exact Or.inr ⟨current, _, hc, hstatus, reached_mem_transitions lower hr, if_pos hs⟩
    · exact Or.inl ⟨.changed, if_neg hs⟩

/-- Whatever copy the caller brings, no call leaves a closed set of statuses. -/
theorem transitionApproval_statusOf {p : ApprovalStatus → Bool} (hp : ApprovalStatus.Closed p) {approvalId : String}
    (hs : (s.statusOf approvalId).any p) (approval : ApprovalRequest) (target : ApprovalStatus)
    (principal : Principal) (reason : Option String) (allowWriteActions : Bool) (moment : Moment) :
    ((transitionApproval lower s approval target principal reason allowWriteActions
      moment).2.statusOf approvalId).any p := by
  obtain ⟨error, he⟩ | ⟨current, reached, hc, hstatus, hedge, he⟩ :=
    transitionApproval_cases lower s approval target principal reason allowWriteActions moment
  · rw [he]
    exact hs
  · have hstored := ApprovalRepository.statusOf_eq_some.mpr ⟨current, hc, hstatus⟩
    rw [he]
    exact ApprovalRepository.any_statusOf_record hp hstored hedge moment _ hs

theorem transitionApproval_changes (hknown : s.knows approval) (target : ApprovalStatus) (principal : Principal)
    (reason : Option String) (allowWriteActions : Bool) (moment : Moment) :
    Relation.ReflTransGen ApprovalChange s
      (transitionApproval lower s approval target principal reason allowWriteActions moment).2 := by
  obtain ⟨error, he⟩ | ⟨current, reached, hc, hs, hedge, he⟩ :=
    transitionApproval_cases lower s approval target principal reason allowWriteActions moment
  · rw [he]
  · rw [he]
    have hcopy : approval.sameRequest current := by
      simpa [ApprovalRepository.knows, hc] using hknown
    exact .single (.decided _ _ _ hc hcopy hs hedge)

end Steps

variable {a : ApprovalRequest} {s s' : ApprovalRepository} {approvalId : String}

theorem ApprovalRequest.sameRequest_trans {b c : ApprovalRequest} (hab : a.sameRequest b) (hbc : b.sameRequest c) :
    a.sameRequest c := by
  simp only [sameRequest, decide_eq_true_eq] at *
  obtain ⟨h1, h2, h3, h4⟩ := hab
  obtain ⟨k1, k2, k3, k4⟩ := hbc
  exact ⟨h1.trans k1, h2.trans k2, h3.trans k3, h4.trans k4⟩

theorem ApprovalRequest.sameRequest_symm {b : ApprovalRequest} (h : a.sameRequest b) : b.sameRequest a := by
  simp only [sameRequest, decide_eq_true_eq] at *
  obtain ⟨h1, h2, h3, h4⟩ := h
  exact ⟨h1.symm, h2.symm, h3.symm, h4.symm⟩

theorem ApprovalChange.stored (h : ApprovalChange s s') (ha : s.items.get? approvalId = some a) :
    ∃ b, s'.items.get? approvalId = some b ∧ a.sameRequest b := by
  cases h with
  | @created approval actor requested unknown fresh =>
    have hne : approval.id ≠ approvalId := by
      rintro rfl
      rw [fresh] at ha
      cases ha
    exact ⟨a, by rw [Table.get?_put_of_ne _ hne, ha], by simp [ApprovalRequest.sameRequest]⟩
  | @decided approval current target actor reason moment stored copy unchanged edge =>
    by_cases hid : approval.id = approvalId
    · rw [← hid, stored] at ha
      have hca := Option.some.inj ha
      subst hca
      refine ⟨approval.decided target moment, ?_, ?_⟩
      · simp [ApprovalRepository.record, ApprovalRequest.decided, hid]
      · exact ApprovalRequest.sameRequest_symm copy
    · refine ⟨a, ?_, by simp [ApprovalRequest.sameRequest]⟩
      simp [ApprovalRepository.record, Table.get?_put, ApprovalRequest.decided, hid, ha]

theorem ApprovalChange.statusOf {p : ApprovalStatus → Bool} (hp : ApprovalStatus.Closed p) (h : ApprovalChange s s')
    (hs : (s.statusOf approvalId).any p) : (s'.statusOf approvalId).any p := by
  cases h with
  | @created approval actor requested unknown fresh =>
    have hne : approval.id ≠ approvalId := by
      rintro rfl
      simp [ApprovalRepository.statusOf, fresh] at hs
    simpa [ApprovalRepository.statusOf, Table.get?_put_of_ne _ hne] using hs
  | @decided approval current target actor reason moment stored copy unchanged edge =>
    have hstored := ApprovalRepository.statusOf_eq_some.mpr ⟨current, stored, unchanged⟩
    exact ApprovalRepository.any_statusOf_record hp hstored edge moment _ hs

theorem statusOf_changes {p : ApprovalStatus → Bool} (hp : ApprovalStatus.Closed p)
    (h : Relation.ReflTransGen ApprovalChange s s') (hs : (s.statusOf approvalId).any p) :
    (s'.statusOf approvalId).any p := by
  induction h with
  | refl => exact hs
  | tail _ hlast ih => exact hlast.statusOf hp ih

theorem stored_of_changes (h : Relation.ReflTransGen ApprovalChange s s') (ha : s.items.get? approvalId = some a) :
    ∃ b, s'.items.get? approvalId = some b ∧ a.sameRequest b := by
  induction h with
  | refl => exact ⟨a, ha, by simp [ApprovalRequest.sameRequest]⟩
  | tail _ hlast ih =>
    obtain ⟨b, hb, hab⟩ := ih
    obtain ⟨c, hc, hbc⟩ := hlast.stored hb
    exact ⟨c, hc, ApprovalRequest.sameRequest_trans hab hbc⟩

section Steps
variable (lower : String → String)

/-- The list of due approvals is a snapshot: each copy is out of date as soon as
somebody else decides it. -/
theorem sweepEach_changes (moment : Moment) (due : List ApprovalRequest) :
    ∀ (expired : Nat) (s : ApprovalRepository),
      (∀ a ∈ due, ∃ b, s.items.get? a.id = some b ∧ a.sameRequest b) →
      Relation.ReflTransGen ApprovalChange s (sweepEach lower moment due expired s).2 := by
  induction due with
  | nil => exact fun _ _ _ => .refl
  | cons approval due ih =>
    intro expired s hdue
    obtain ⟨b, hb, hab⟩ := hdue approval (by simp)
    have hknown : s.knows approval := by simp [ApprovalRepository.knows, hb, hab]
    have hfirst := transitionApproval_changes lower hknown .expired
      (approvalExpiry approval.workspaceId) (some "scheduled expiry") false moment
    have hrest : ∀ a ∈ due, ∃ c,
        (transitionApproval lower s approval .expired (approvalExpiry approval.workspaceId)
          (some "scheduled expiry") false moment).2.items.get? a.id = some c ∧ a.sameRequest c := by
      intro a ha
      obtain ⟨c, hc, hac⟩ := hdue a (by simp [ha])
      obtain ⟨d, hd, hcd⟩ := stored_of_changes hfirst hc
      exact ⟨d, hd, ApprovalRequest.sameRequest_trans hac hcd⟩
    rw [sweepEach]
    split
    next s' he =>
      rw [he] at hfirst hrest
      exact hfirst.trans (ih (expired + 1) s' hrest)
    next s' he =>
      rw [he] at hfirst hrest
      exact hfirst.trans (ih expired s' hrest)
    next s' error hne he =>
      rw [he] at hfirst
      exact hfirst

theorem sweep_changes (s : ApprovalRepository) (moment : Moment) :
    Relation.ReflTransGen ApprovalChange s (s.sweep lower moment).2 := by
  apply sweepEach_changes
  intro a ha
  have hmem : a ∈ s.items.rows := (List.mem_filter.mp ha).1
  exact ⟨a, Table.get?_of_mem hmem, by simp [ApprovalRequest.sameRequest]⟩

theorem create_changes {s : ApprovalRepository} {approval : ApprovalRequest}
    (hrequested : approval.status = .requested) (hnew : s.admitsNew approval) :
    Relation.ReflTransGen ApprovalChange s (s.create approval).2 := by
  unfold ApprovalRepository.create
  split
  · exact .refl
  next hnone =>
    have hfresh : s.items.get? approval.id = none := by
      simpa [ApprovalRepository.admitsNew, hnone] using hnew
    exact .single (.created _ hrequested hnone hfresh)

theorem ApprovalOp.step_changes {s s' : ApprovalRepository} {op : ApprovalOp}
    (h : op.step lower s = some s') : Relation.ReflTransGen ApprovalChange s s' := by
  unfold ApprovalOp.step at h
  split at h
  next hok =>
    obtain ⟨hfresh, hcopied⟩ := Bool.and_eq_true_iff.mp hok
    cases h
    cases op with
    | create approval =>
      obtain ⟨hrequested, hnew⟩ := Bool.and_eq_true_iff.mp hfresh
      exact create_changes (of_decide_eq_true hrequested) hnew
    | transition approval target principal reason allow moment =>
      exact transitionApproval_changes lower hcopied target principal reason allow moment
    | sweep moment => exact sweep_changes lower s moment
  next => cases h

end Steps

end SelericSwarm
