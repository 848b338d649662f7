import SelericSwarm.ApprovalSteps
import Mathlib.Data.List.Chain

/-! The decision events of an approval are the path it took. -/
namespace SelericSwarm
open Keyed

namespace ApprovalStatus

/-- Nothing follows these statuses. -/
def final (status : ApprovalStatus) : Bool :=
  status ∈ [rejected, expired, cancelled, rolledBack]

theorem transitions_eq_nil_iff (status : ApprovalStatus) :
    status.transitions = [] ↔ status.final := by
  cases status <;> decide

end ApprovalStatus

def TakesUp (event next : ApprovalDecisionEvent) : Prop :=
  next.fromStatus = some event.toStatus ∧ next.toStatus ∈ event.toStatus.transitions

/-- The events are a path along `transitions` from the request to the status. -/
structure Trail (approvalId : String) (events : List ApprovalDecisionEvent)
    (status : ApprovalStatus) : Prop where
  about : ∀ event ∈ events, event.approvalId = approvalId
  first : ∃ event, events.head? = some event ∧ event.fromStatus = none ∧ event.toStatus = .requested
  linked : events.IsChain TakesUp
  last : ∃ event, events.getLast? = some event ∧ event.toStatus = status

structure Audited (s : ApprovalRepository) : Prop where
  trails : ∀ approvalId a, s.items.get? approvalId = some a →
    Trail approvalId (s.events.getD approvalId []) a.status
  distinct : ∀ a ∈ s.items.rows, ∀ b ∈ s.items.rows, a.workspaceId = b.workspaceId →
    a.ownerUserId = b.ownerUserId → a.idempotencyKey = b.idempotencyKey → a = b

def Kept (s s' : ApprovalRepository) (approvalId : String) : Prop :=
  s'.items.get? approvalId = s.items.get? approvalId ∧
    s'.events.getD approvalId [] = s.events.getD approvalId []

theorem Trail.requested (approvalId actor : String) :
    Trail approvalId [{ approvalId, toStatus := .requested, actorPrincipalId := actor }]
      .requested where
  about := by simp
  first := ⟨_, rfl, rfl, rfl⟩
  linked := .singleton _
  last := ⟨_, rfl, rfl⟩

variable {approvalId : String} {s s' : ApprovalRepository}

theorem Trail.concat {events : List ApprovalDecisionEvent} {status : ApprovalStatus}
    (h : Trail approvalId events status) {event : ApprovalDecisionEvent} (habout : event.approvalId = approvalId)
    (hfrom : event.fromStatus = some status) (hedge : event.toStatus ∈ status.transitions) :
    Trail approvalId (events ++ [event]) event.toStatus where
  about := by
    intro e he
    obtain he | he := List.mem_append.mp he
    · exact h.about e he
    · exact List.mem_singleton.mp he ▸ habout
  first := by
    obtain ⟨e, he, hnone, hreq⟩ := h.first
    exact ⟨e, by simp [he], hnone, hreq⟩
  linked := by
    obtain ⟨e, he, hlast⟩ := h.last
    refine h.linked.append (.singleton _) ?_
    intro x hx y hy
    rw [he] at hx
    cases hx
    simp only [List.head?_cons, Option.mem_some_iff] at hy
    subst hy
    exact ⟨by rw [hfrom, hlast], by rw [hlast]; exact hedge⟩
  last := ⟨event, by simp, rfl⟩

theorem Audited.empty : Audited {} where
  trails := by
    intro approvalId a ha
    cases ha
  distinct := by
    intro a ha
    cases ha

theorem Audited.change (hs : Audited s) (h : ApprovalChange s s') : Audited s' := by
  cases h with
  | @created approval actor requested unknown fresh =>
    have hunknown : ∀ b ∈ s.items.rows, b.workspaceId = approval.workspaceId →
        b.ownerUserId = approval.ownerUserId → b.idempotencyKey ≠ approval.idempotencyKey := by
      intro b hb hw ho hk
      have := List.find?_eq_none.mp unknown b hb
      simp [hw, ho, hk] at this
    constructor
    · intro approvalId a ha
      rw [Table.get?_put] at ha
      rw [Dict.getD_set]
      by_cases hid : approval.id = approvalId
      · rw [if_pos hid] at ha ⊢
        cases ha
        rw [requested, hid]
        exact .requested approvalId actor
      · rw [if_neg hid] at ha ⊢
        exact hs.trails approvalId a ha
    · intro a ha b hb hw ho hk
      obtain hnew | hold := Table.mem_put ha <;> obtain hnew' | hold' := Table.mem_put hb
      · rw [hnew, hnew']
      · subst hnew
        exact absurd hk.symm (hunknown b hold' hw.symm ho.symm)
      · subst hnew'
        exact absurd hk (hunknown a hold hw ho)
      · exact hs.distinct a hold b hold' hw ho hk
  | @decided approval current target actor reason moment stored copy unchanged edge =>
    have hcurrent := Table.mem_of_get? stored
    obtain ⟨-, hw', ho', hk'⟩ := of_decide_eq_true copy
    constructor
    · intro approvalId a ha
      simp only [ApprovalRepository.record] at ha ⊢
      rw [Table.get?_put] at ha
      rw [Dict.getD_set]
      by_cases hid : approval.id = approvalId
      · rw [if_pos (by exact hid)] at ha ⊢
        cases ha
        subst hid
        have htrail := hs.trails approval.id current stored
        rw [unchanged] at htrail
        exact htrail.concat rfl rfl edge
      · rw [if_neg (by exact hid)] at ha ⊢
        exact hs.trails approvalId a ha
    · intro a ha b hb hw ho hk
      obtain rfl | ⟨ha, hne⟩ := Table.mem_put_or ha <;>
        obtain rfl | ⟨hb, hne'⟩ := Table.mem_put_or hb
      · rfl
      · have := hs.distinct current hcurrent b hb (hw'.symm.trans hw) (ho'.symm.trans ho)
          (hk'.symm.trans hk)
        subst this
        exact absurd (Table.key_of_get? stored) hne'
      · have := hs.distinct a ha current hcurrent (hw.trans hw') (ho.trans ho') (hk.trans hk')
        subst this
        exact absurd (Table.key_of_get? stored) hne
      · exact hs.distinct a ha b hb hw ho hk

theorem Kept.change (h : ApprovalChange s s') {a : ApprovalRequest} (ha : s.items.get? approvalId = some a)
    (hfinal : a.status.final) : Kept s s' approvalId := by
  cases h with
  | @created approval actor requested unknown fresh =>
    have hne : approval.id ≠ approvalId := by
      rintro rfl
      rw [fresh] at ha
      cases ha
    exact ⟨Table.get?_put_of_ne _ hne, by rw [Dict.getD_set, if_neg hne]⟩
  | @decided approval current target actor reason moment stored copy unchanged edge =>
    have hne : approval.id ≠ approvalId := by
      rintro rfl
      rw [stored] at ha
      cases ha
      rw [← ApprovalStatus.transitions_eq_nil_iff, unchanged] at hfinal
      rw [hfinal] at edge
      cases edge
    exact ⟨Table.get?_put_of_ne _ hne, by
      rw [ApprovalRepository.record, Dict.getD_set, if_neg (by exact hne)]⟩

theorem Audited.changes (hs : Audited s) (h : Relation.ReflTransGen ApprovalChange s s') : Audited s' := by
  induction h with
  | refl => exact hs
  | tail _ hlast ih => exact ih.change hlast

theorem Kept.changes (h : Relation.ReflTransGen ApprovalChange s s') {a : ApprovalRequest}
    (ha : s.items.get? approvalId = some a) (hfinal : a.status.final) : Kept s s' approvalId := by
  induction h with
  | refl => exact ⟨rfl, rfl⟩
  | tail _ hlast ih =>
    obtain ⟨hitem, hevents⟩ := ih
    obtain ⟨hitem', hevents'⟩ := Kept.change hlast (hitem.trans ha) hfinal
    exact ⟨hitem'.trans hitem, hevents'.trans hevents⟩

section Runs
variable (lower : String → String)

theorem exec_changes {ops : List ApprovalOp} {s s' : ApprovalRepository}
    (h : Machine.exec (ApprovalOp.step lower) s ops = some s') :
    Relation.ReflTransGen ApprovalChange s s' :=
  Machine.invariant (fun _ _ _ hi hstep => hi.trans (ApprovalOp.step_changes lower hstep)) .refl h

/-- Every approval's events tell its history, no request is filed twice, and an
approval that has come to an end stays as it is. -/
theorem approvals_audited {ops : List ApprovalOp} {s : ApprovalRepository}
    (h : Machine.exec (ApprovalOp.step lower) {} ops = some s) :
    Audited s ∧ ∀ later s', Machine.exec (ApprovalOp.step lower) s later = some s' →
      ∀ approvalId a, s.items.get? approvalId = some a → a.status.final → Kept s s' approvalId := by
  refine ⟨Audited.empty.changes (exec_changes lower h), ?_⟩
  intro later s' hlater approvalId a ha hfinal
  exact Kept.changes (exec_changes lower hlater) ha hfinal

end Runs

/-- A request is approved, and the expiry sweep comes before its execution. -/
def expiredRequest : List ApprovalOp :=
  let request : ApprovalRequest := {
    id := "approval_1", workspaceId := "w", ownerUserId := "u", actionType := "update_bid",
    requiredRole := "approver", idempotencyKey := "k", dryRun := false, expiresAt := some 5
    updatedAt := 0 }
  let approver : Principal := {
    principalId := "p", workspaceId := "w", userId := "v", authenticated := true
    roles := ["approver"] }
  [.create request, .transition request .approved approver none false 1, .sweep 5]

theorem expiredRequest_audited :
    ∃ s, Machine.exec (ApprovalOp.step String.toLower) {} expiredRequest = some s ∧
      s.statusOf "approval_1" = some .expired ∧
      Audited s ∧ ∀ later s', Machine.exec (ApprovalOp.step String.toLower) s later = some s' →
        ∀ approvalId a, s.items.get? approvalId = some a → a.status.final →
          Kept s s' approvalId := by
  have h : (Machine.exec (ApprovalOp.step String.toLower) {} expiredRequest).any (fun s =>
      s.statusOf "approval_1" = some .expired) = true := by decide +kernel
  obtain ⟨s, hs, hstatus⟩ := (Option.any_eq_true _ _).mp h
  exact ⟨s, hs, of_decide_eq_true hstatus, approvals_audited String.toLower hs⟩

end SelericSwarm
