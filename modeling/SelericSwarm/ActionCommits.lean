import SelericSwarm.SemanticTools
import SelericSwarm.Machine

/-! The action toolset: proposals of the action broker and their commits. A step is one
stretch of `propose_action` or `commit_action` between its awaits. -/
open List Option

namespace SelericSwarm.Agent
open Keyed

/-- What keys the process-local state: the gateway client and the workspace. -/
structure ActionContext where
  client : Nat
  workspaceId : String
  deriving DecidableEq

/-- `_proposal_key` with an approval id, `_commit_key` with an idempotency key. -/
abbrev ActionKey := ActionContext × String

structure ProposalState where
  preview : Payload
  confirmationToken : Option String

/-- What `mcp_client.call` does: a mapping, nothing, a value on which `dict` raises, or an exception. -/
inductive BrokerReply where
  | payload (payload : Payload)
  | null
  | misfit (type message : String)
  | raised (type message : String)

/-- A commit request of the broker that has completed without raising. -/
structure CompletedCommit where
  key : ActionKey
  approvalId : String
  token : String

/-- A call of `commit_action`: awaiting `seleric.actions_commit` for a proposal, awaiting
`seleric.actions_status`, or over. -/
inductive CommitStage where
  | committing (proposal : Nat) (token : String)
  | asking
  | ended (outcome : ToolOutcome)

def CommitStage.sent? : CommitStage → Option (Nat × String)
  | .committing proposal token => some (proposal, token)
  | _ => none

structure CommitCall where
  key : ActionKey
  approvalId : String
  stage : CommitStage

/-- `proposals` are the objects that `proposalOf` refers to. -/
structure ActionProcess where
  proposals : List ProposalState := []
  proposalOf : Dict ActionKey Nat := .empty
  commitKeys : Dict ActionKey String := .empty
  calls : List CommitCall := []
  completed : List CompletedCommit := []

/-- `str` and `str.upper`. -/
structure ActionTexts where
  text : Json → String
  upper : String → String

/-- `payload.get(key)`, where it counts as true. -/
def given (payload : Payload) (key : String) : Option Json := (payload.get? key).filter truthy

def sanitized (payload : Payload) : Payload := Table.erase payload "confirmation_token"

def mcpError (type message : String) : ToolResult :=
  failure (type ++ ": " ++ message) "MCP_UNAVAILABLE" true unavailable_ne

def refused (summary errorCode : String) (h : errorCode ≠ "" := by simp) : ToolOutcome :=
  .returned (failure summary errorCode false h)

namespace ActionTexts
variable (texts : ActionTexts)

def remoteError (payload : Payload) (code : String) (h : code ≠ "" := by simp) : ToolResult :=
  { failure (((given payload "error").map texts.text).getD "action broker rejected the request") code false h with
    provenance := { sourceMetadata := sanitized payload } }

/-- `str(payload.get("status") or "").upper()`. -/
def state (payload : Payload) : String := texts.upper (((given payload "status").map texts.text).getD "")

def orUnknown (state : String) : String := if state = "" then "unknown" else state

def executed (state : String) : Bool := state = "EXECUTED" || state = "DUPLICATE"

/-- The answer to a commit that its key was bound for before. -/
def statusResult (approvalId : String) (payload : Payload) : ToolResult :=
  let state := texts.state payload
  let summary := "idempotent commit status for " ++ approvalId ++ ": " ++ orUnknown state
  let provenance := { sourceMetadata := sanitized payload }
  if executed state then { success := true, summary, provenance }
  else
    { failure summary "ACTION_COMMIT_IN_PROGRESS" (state ∉ ["FAILED", "REJECTED", "EXPIRED"]) with provenance }

def commitResult (approvalId : String) (payload : Payload) : ToolResult :=
  let state := texts.state payload
  let summary := "action proposal " ++ approvalId ++ " commit result: " ++ orUnknown state
  let provenance := { sourceMetadata := sanitized payload }
  if (given payload "error").isSome then texts.remoteError payload "ACTION_COMMIT_FAILED"
  else if executed state then { success := true, summary, provenance }
  else { failure summary "ACTION_COMMIT_FAILED" false with provenance }

/-- The answer to a proposal; `risk` is what `classify_action_risk` says. -/
def proposalResult (approvalId : String) (payload : Payload) (risk : Option String) : ToolResult where
  success := true
  summary := "action proposal " ++ approvalId ++ " is " ++
    if (given payload "eligible").isSome then "eligible; explicit user confirmation is required"
    else "not eligible"
  warnings :=
    (if (given payload "eligible").isSome then [] else ["proposal is not eligible and cannot be committed"]) ++
    (if truthy (payload.getD "write_enabled" (.bool true)) then [] else ["remote write kill switch is disabled"]) ++
    match risk with
    | some "medium" => ["action risk: medium — confirm the blast radius before committing"]
    | some "high" => ["action risk: high — confirm the blast radius before committing"]
    | _ => []
  provenance := { sourceMetadata := sanitized payload }

end ActionTexts

inductive ActionStep where
  | proposed (ctx : ActionContext) (reply : BrokerReply)
  | commit (ctx : ActionContext) (approvalId idempotencyKey : String)
  | committed (call : Nat) (reply : BrokerReply)
  | status (call : Nat) (reply : BrokerReply)
  | cancelled (call : Nat)

namespace ActionProcess
variable (texts : ActionTexts)

/-- The rest of `propose_action`, from the broker's answer on; `_PROPOSALS` gets a new object. -/
def propose (s : ActionProcess) (ctx : ActionContext) (reply : BrokerReply) (risk : Option String) :
    ToolOutcome × ActionProcess :=
  match reply with
  | .raised type message => (.returned (mcpError type message), s)
  | .misfit _ _ => (.raised, s)
  | .null => (refused "action broker returned no action_request_id" "MALFORMED_ACTION_RESPONSE", s)
  | .payload result =>
    if (given result "error").isSome then (.returned (texts.remoteError result "ACTION_REJECTED"), s)
    else
      let approvalId := ((given result "action_request_id").map texts.text).getD ""
      if approvalId = "" then
        (refused "action broker returned no action_request_id" "MALFORMED_ACTION_RESPONSE", s)
      else
        (.returned (ActionTexts.proposalResult approvalId result risk),
          { s with
            proposals := s.proposals ++
              [⟨sanitized result, (given result "confirmation_token").map texts.text⟩]
            proposalOf := s.proposalOf.set (ctx, approvalId) s.proposals.length })

/-- The proposal that a commit finds, and its token if there is one. -/
def live (s : ActionProcess) (ctx : ActionContext) (approvalId : String) : Option (Nat × String) :=
  (s.proposalOf.get? (ctx, approvalId)).bind fun proposal =>
    ((s.proposals[proposal]?.bind ProposalState.confirmationToken).filter (· ≠ "")).map (proposal, ·)

/-- `commit_action` up to its first await. -/
def commitAction (s : ActionProcess) (ctx : ActionContext) (approvalId idempotencyKey : String) : CommitStage :=
  if isBlank idempotencyKey then
    .ended (refused "idempotency_key must not be empty" "INVALID_IDEMPOTENCY_KEY")
  else
    match s.commitKeys.get? (ctx, idempotencyKey) with
    | some prior =>
      if prior ≠ approvalId then
        .ended (refused ("idempotency key is already bound to action proposal " ++ prior) "IDEMPOTENCY_CONFLICT")
      else .asking
    | none =>
      match s.live ctx approvalId with
      | none => .ended (refused ("no live confirmation token for " ++ approvalId ++
          "; re-propose and confirm again") "ACTION_NOT_APPROVED")
      | some (proposal, token) => .committing proposal token

def commit (s : ActionProcess) (ctx : ActionContext) (approvalId idempotencyKey : String) : ActionProcess :=
  let stage := s.commitAction ctx approvalId idempotencyKey
  { s with
    commitKeys := match stage with
      | .committing _ _ => s.commitKeys.set (ctx, idempotencyKey) approvalId
      | _ => s.commitKeys
    calls := s.calls ++ [{ key := (ctx, idempotencyKey), approvalId, stage }] }

def finish (s : ActionProcess) (index : Nat) (call : CommitCall) (outcome : ToolOutcome) : ActionProcess :=
  { s with calls := s.calls.set index { call with stage := .ended outcome } }

/-- `proposal.confirmation_token = None`. -/
def spend (s : ActionProcess) (proposal : Nat) : ActionProcess :=
  { s with proposals := s.proposals.modify proposal fun p => { p with confirmationToken := none } }

def complete (s : ActionProcess) (call : CommitCall) (token : String) : ActionProcess :=
  { s with completed := s.completed ++ [{ key := call.key, approvalId := call.approvalId, token }] }

/-- The rest of `commit_action`, from the answer to `seleric.actions_commit` on. -/
def receive (s : ActionProcess) (index : Nat) (call : CommitCall) (proposal : Nat) (token : String) :
    BrokerReply → ActionProcess
  | .raised type message =>
    { s with commitKeys := Table.erase s.commitKeys call.key }.finish index call (.returned (mcpError type message))
  | .misfit _ _ => (s.complete call token).finish index call .raised
  | .null =>
    ((s.complete call token).spend proposal).finish index call
      (.returned (texts.commitResult call.approvalId .empty))
  | .payload result =>
    ((s.complete call token).spend proposal).finish index call
      (.returned (texts.commitResult call.approvalId result))

def statusOutcome (call : CommitCall) : BrokerReply → ToolOutcome
  | .raised type message | .misfit type message => .returned (mcpError type message)
  | .null => .returned (texts.statusResult call.approvalId .empty)
  | .payload status => .returned (texts.statusResult call.approvalId status)

def step (s : ActionProcess) : ActionStep → Option ActionProcess
  | .proposed ctx reply => some (s.propose texts ctx reply none).2
  | .commit ctx approvalId idempotencyKey => some (s.commit ctx approvalId idempotencyKey)
  | .committed index reply => s.calls[index]?.bind fun call =>
    match call.stage with
    | .committing proposal token => some (s.receive texts index call proposal token reply)
    | _ => none
  | .status index reply => s.calls[index]?.bind fun call =>
    match call.stage with
    | .asking => some (s.finish index call (statusOutcome texts call reply))
    | _ => none
  | .cancelled index => s.calls[index]?.bind fun call =>
    match call.stage with
    | .ended _ => none
    | _ => some (s.finish index call .raised)

end ActionProcess

/-! What a commit needs: its proposal is not with the broker already, the broker hands out no
token twice, and its answer to a commit is a mapping or nothing. -/

namespace ActionProcess

/-- The call, its proposal and the token that are with the broker. -/
def waiting (s : ActionProcess) (index : Nat) : Option (CommitCall × Nat × String) :=
  s.calls[index]?.bind fun call => call.stage.sent?.map (call, ·)

def tokenOf (s : ActionProcess) (proposal : Nat) : Option String :=
  s.proposals[proposal]?.bind ProposalState.confirmationToken

/-- A token that the broker has handed out before. -/
def Knows (s : ActionProcess) (token : String) : Prop :=
  (∃ proposal, s.tokenOf proposal = some token) ∨ ∃ c ∈ s.completed, c.token = token

def Orderly (texts : ActionTexts) (s : ActionProcess) : ActionStep → Prop
  | .proposed _ (.payload result) =>
    ∀ token, (given result "confirmation_token").map texts.text = some token → ¬s.Knows token
  | .commit ctx approvalId idempotencyKey =>
    ∀ proposal token, s.commitAction ctx approvalId idempotencyKey = .committing proposal token →
      ∀ index call token', s.waiting index ≠ some (call, proposal, token')
  | .committed _ (.misfit _ _) => False
  | _ => True

/-- A key that has a commit with the broker, or a completed one, is bound to its proposal, and
has no other. -/
structure KeysBound (s : ActionProcess) : Prop where
  sent : ∀ i call sent, s.waiting i = some (call, sent) → s.commitKeys.get? call.key = some call.approvalId
  alone : ∀ i j a b sent sent', s.waiting i = some (a, sent) → s.waiting j = some (b, sent') → a.key = b.key → i = j
  done : ∀ c ∈ s.completed, s.commitKeys.get? c.key = some c.approvalId
  «over» : ∀ c ∈ s.completed, ∀ i call sent, s.waiting i = some (call, sent) → call.key ≠ c.key
  once : (s.completed.map CompletedCommit.key).Nodup

/-- A token belongs to one proposal, is with the broker at most once, and is gone when its
commit has completed. -/
structure TokensSpent (s : ActionProcess) : Prop where
  sent : ∀ i call proposal token, s.waiting i = some (call, proposal, token) → s.tokenOf proposal = some token
  alone : ∀ i j a b proposal token token', s.waiting i = some (a, proposal, token) →
    s.waiting j = some (b, proposal, token') → i = j
  apart : ∀ p q token, s.tokenOf p = some token → s.tokenOf q = some token → p = q
  spent : ∀ c ∈ s.completed, ∀ p, s.tokenOf p ≠ some c.token
  once : (s.completed.map CompletedCommit.token).Nodup

/-! What the operations do to the calls that wait, and to the tokens. -/

theorem propose_calls (s : ActionProcess) (texts : ActionTexts) (ctx : ActionContext) (reply : BrokerReply)
    (risk : Option String) : (s.propose texts ctx reply risk).2.calls = s.calls := by
  cases reply with
  | payload result =>
    simp only [propose]
    split
    · rfl
    · split <;> rfl
  | null => rfl
  | misfit type message => rfl
  | raised type message => rfl

variable {s : ActionProcess} {a : ActionStep}

theorem waiting_finish {index : Nat} {call : CommitCall} {outcome : ToolOutcome} (j : Nat) :
    (s.finish index call outcome).waiting j = if index = j then none else s.waiting j := by
  simp only [waiting, finish, List.getElem?_set]
  split
  · split <;> rfl
  · rfl

theorem waiting_commit {ctx : ActionContext} {approvalId idempotencyKey : String} (j : Nat) :
    (s.commit ctx approvalId idempotencyKey).waiting j =
      if j = s.calls.length then
        (s.commitAction ctx approvalId idempotencyKey).sent?.map
          ({ key := (ctx, idempotencyKey), approvalId, stage := s.commitAction ctx approvalId idempotencyKey }, ·)
      else s.waiting j := by
  simp only [waiting, commit]
  by_cases hj : j = s.calls.length
  · simp [hj]
  · rw [if_neg hj]
    obtain hlt | hlt := Nat.lt_or_gt_of_ne hj
    · rw [List.getElem?_append_left hlt]
    · rw [List.getElem?_eq_none (by simp; omega), List.getElem?_eq_none (by omega)]

theorem tokenOf_spend {proposal : Nat} (q : Nat) :
    (s.spend proposal).tokenOf q = if proposal = q then none else s.tokenOf q := by
  simp only [tokenOf, spend, List.getElem?_modify]
  by_cases hq : proposal = q
  · cases s.proposals[q]? <;> simp [hq]
  · simp [hq]

theorem committing_iff {ctx : ActionContext} {approvalId idempotencyKey : String} {proposal : Nat} {token : String}
    (h : s.commitAction ctx approvalId idempotencyKey = .committing proposal token) :
    s.commitKeys.get? (ctx, idempotencyKey) = none ∧ s.tokenOf proposal = some token := by
  unfold commitAction at h
  split at h
  · cases h
  · split at h
    · split at h <;> cases h
    next hkey =>
      split at h
      · cases h
      next hlive =>
        obtain ⟨rfl, rfl⟩ := CommitStage.committing.inj h
        obtain ⟨found, -, htoken⟩ := bind_eq_some_iff.mp hlive
        obtain ⟨token', hfilter, heq⟩ := map_eq_some_iff.mp htoken
        obtain ⟨rfl, rfl⟩ := Prod.mk.inj heq
        exact ⟨hkey, (filter_eq_some_iff.mp hfilter).1⟩

/-- What one step can change, in terms of the keys, the waiting calls, the tokens and the
commits that have completed. -/
inductive Change (texts : ActionTexts) (s s' : ActionProcess) : ActionStep → Prop where
  | quiet (a : ActionStep) (keys : s'.commitKeys = s.commitKeys) (completed : s'.completed = s.completed)
      (tokens : ∀ q, s'.tokenOf q = s.tokenOf q) (waiting : ∀ j w, s'.waiting j = some w → s.waiting j = some w) :
      Change texts s s' a
  | filed (ctx : ActionContext) (result : Payload) (keys : s'.commitKeys = s.commitKeys)
      (completed : s'.completed = s.completed) (waiting : ∀ j, s'.waiting j = s.waiting j)
      (tokens : ∀ q, s'.tokenOf q = if q = s.proposals.length then
        (given result "confirmation_token").map texts.text else s.tokenOf q) :
      Change texts s s' (.proposed ctx (.payload result))
  | opened (ctx : ActionContext) (call : CommitCall) (idempotencyKey : String) (proposal : Nat) (token : String)
      (key : call.key = (ctx, idempotencyKey))
      (stage : s.commitAction ctx call.approvalId idempotencyKey = .committing proposal token)
      (keys : s'.commitKeys = s.commitKeys.set call.key call.approvalId) (completed : s'.completed = s.completed)
      (tokens : ∀ q, s'.tokenOf q = s.tokenOf q)
      (waiting : ∀ j, s'.waiting j = if j = s.calls.length then some (call, proposal, token) else s.waiting j) :
      Change texts s s' (.commit ctx call.approvalId idempotencyKey)
  | failed (i : Nat) (call : CommitCall) (sent : Nat × String) (reply : BrokerReply)
      (waits : s.waiting i = some (call, sent)) (keys : s'.commitKeys = Table.erase s.commitKeys call.key)
      (completed : s'.completed = s.completed) (tokens : ∀ q, s'.tokenOf q = s.tokenOf q)
      (waiting : ∀ j, s'.waiting j = if i = j then none else s.waiting j) :
      Change texts s s' (.committed i reply)
  | done (i : Nat) (call : CommitCall) (proposal : Nat) (token : String) (reply : BrokerReply)
      (waits : s.waiting i = some (call, proposal, token)) (keys : s'.commitKeys = s.commitKeys)
      (completed : s'.completed = s.completed ++ [{ key := call.key, approvalId := call.approvalId, token }])
      (tokens : ∀ q, q ≠ proposal → s'.tokenOf q = s.tokenOf q)
      (spent : (∀ type message, reply ≠ .misfit type message) → s'.tokenOf proposal = none)
      (waiting : ∀ j, s'.waiting j = if i = j then none else s.waiting j) :
      Change texts s s' (.committed i reply)

variable {texts : ActionTexts}

theorem proposed_change (ctx : ActionContext) (reply : BrokerReply) :
    Change texts s (s.propose texts ctx reply none).2 (.proposed ctx reply) := by
  have hquiet : Change texts s s (.proposed ctx reply) := .quiet _ rfl rfl (fun _ => rfl) fun _ _ h => h
  cases reply with
  | null => exact hquiet
  | misfit type message => exact hquiet
  | raised type message => exact hquiet
  | payload result =>
    simp only [propose]
    split
    · exact hquiet
    · split
      · exact hquiet
      · refine .filed ctx result rfl rfl (fun _ => rfl) fun q => ?_
        simp only [tokenOf, List.getElem?_append]
        obtain hlt | rfl | hgt := Nat.lt_trichotomy q s.proposals.length
        · simp [hlt, hlt.ne]
        · simp
        · simp [hgt.ne', hgt.le.not_gt, Nat.sub_ne_zero_of_lt hgt]

theorem commit_change (ctx : ActionContext) (approvalId idempotencyKey : String) :
    Change texts s (s.commit ctx approvalId idempotencyKey) (.commit ctx approvalId idempotencyKey) := by
  cases hstage : s.commitAction ctx approvalId idempotencyKey with
  | committing proposal token =>
    refine .opened ctx { key := (ctx, idempotencyKey), approvalId, stage := .committing proposal token }
      idempotencyKey proposal token rfl hstage (by simp [commit, hstage]) rfl (fun _ => rfl) fun j => ?_
    rw [waiting_commit, hstage]
    rfl
  | asking =>
    refine .quiet _ (by simp [commit, hstage]) rfl (fun _ => rfl) fun j w hw => ?_
    rw [waiting_commit, hstage] at hw
    split at hw
    · cases hw
    · exact hw
  | ended outcome =>
    refine .quiet _ (by simp [commit, hstage]) rfl (fun _ => rfl) fun j w hw => ?_
    rw [waiting_commit, hstage] at hw
    split at hw
    · cases hw
    · exact hw

theorem finish_quiet {index : Nat} {call : CommitCall} {outcome : ToolOutcome} :
    Change texts s (s.finish index call outcome) a := by
  refine .quiet _ rfl rfl (fun _ => rfl) fun j w hw => ?_
  rw [waiting_finish] at hw
  split at hw
  · cases hw
  · exact hw

theorem receive_change {i : Nat} {call : CommitCall} {proposal : Nat} {token : String}
    (h : s.waiting i = some (call, proposal, token)) (reply : BrokerReply) :
    Change texts s (s.receive texts i call proposal token reply) (.committed i reply) := by
  have hspend : ∀ q, q ≠ proposal → (s.spend proposal).tokenOf q = s.tokenOf q := by
    intro q hq
    rw [tokenOf_spend, if_neg hq.symm]
  have hspent : (s.spend proposal).tokenOf proposal = none := by rw [tokenOf_spend, if_pos rfl]
  cases reply with
  | raised type message => exact .failed i call _ _ h rfl rfl (fun _ => rfl) waiting_finish
  | misfit type message =>
    exact .done i call proposal token _ h rfl rfl (fun _ _ => rfl)
      (fun hreply => absurd rfl (hreply _ _)) waiting_finish
  | null => exact .done i call proposal token _ h rfl rfl hspend (fun _ => hspent) waiting_finish
  | payload result => exact .done i call proposal token _ h rfl rfl hspend (fun _ => hspent) waiting_finish

theorem step_change {s' : ActionProcess} (h : s.step texts a = some s') : Change texts s s' a := by
  cases a with
  | proposed ctx reply => exact Option.some.inj h ▸ proposed_change ctx reply
  | commit ctx approvalId idempotencyKey => exact Option.some.inj h ▸ commit_change ctx approvalId idempotencyKey
  | committed i reply =>
    obtain ⟨call, hcall, hstage⟩ := bind_eq_some_iff.mp h
    split at hstage
    next proposal token hsent =>
      obtain rfl := Option.some.inj hstage
      exact receive_change (by simp [waiting, hcall, hsent, CommitStage.sent?]) reply
    · cases hstage
  | status i reply =>
    obtain ⟨call, -, hstage⟩ := bind_eq_some_iff.mp h
    split at hstage
    · exact Option.some.inj hstage ▸ finish_quiet
    · cases hstage
  | cancelled i =>
    obtain ⟨call, -, hstage⟩ := bind_eq_some_iff.mp h
    split at hstage
    · cases hstage
    · exact Option.some.inj hstage ▸ finish_quiet

/-! The invariants, over any run and over a run of orderly steps. -/

theorem KeysBound.step {s' : ActionProcess} (h : s.KeysBound) (ha : s.step texts a = some s') : s'.KeysBound := by
  cases step_change ha with
  | quiet _ hkeys hcompleted _ hwaiting =>
    refine ⟨?_, ?_, ?_, ?_, hcompleted ▸ h.once⟩
    · exact fun i call sent hi => hkeys ▸ h.sent i call sent (hwaiting i _ hi)
    · exact fun i j a b sent sent' hi hj => h.alone i j a b sent sent' (hwaiting i _ hi) (hwaiting j _ hj)
    · exact fun c hc => hkeys ▸ h.done c (hcompleted ▸ hc)
    · exact fun c hc i call sent hi => h.over c (hcompleted ▸ hc) i call sent (hwaiting i _ hi)
  | filed ctx result hkeys hcompleted hwaiting _ =>
    refine ⟨?_, ?_, ?_, ?_, hcompleted ▸ h.once⟩
    · exact fun i call sent hi => hkeys ▸ h.sent i call sent (hwaiting i ▸ hi)
    · exact fun i j a b sent sent' hi hj => h.alone i j a b sent sent' (hwaiting i ▸ hi) (hwaiting j ▸ hj)
    · exact fun c hc => hkeys ▸ h.done c (hcompleted ▸ hc)
    · exact fun c hc i call sent hi => h.over c (hcompleted ▸ hc) i call sent (hwaiting i ▸ hi)
  | opened ctx call idempotencyKey proposal token hkey hstage hkeys hcompleted _ hwaiting =>
    have hfree : s.commitKeys.get? call.key = none := hkey ▸ (committing_iff hstage).1
    -- the key was free, so what is bound or completed has another
    have hsent : ∀ i b sent, s.waiting i = some (b, sent) → b.key ≠ call.key := fun i b sent hi he =>
      absurd (he ▸ h.sent i b sent hi) (by simp [hfree])
    have hdone : ∀ c ∈ s.completed, c.key ≠ call.key := fun c hc he =>
      absurd (he ▸ h.done c hc) (by simp [hfree])
    refine ⟨?_, ?_, ?_, ?_, hcompleted ▸ h.once⟩
    · intro i b sent hi
      rw [hwaiting] at hi
      rw [hkeys]
      split at hi
      · obtain ⟨rfl, -⟩ := Prod.mk.inj (Option.some.inj hi)
        exact Dict.get?_set_self ..
      · rw [Dict.get?_set_of_ne _ _ (hsent i b sent hi).symm]
        exact h.sent i b sent hi
    · intro i j a b sent sent' hi hj he
      rw [hwaiting] at hi hj
      split at hi <;> split at hj
      · omega
      · obtain ⟨rfl, -⟩ := Prod.mk.inj (Option.some.inj hi)
        exact absurd he.symm (hsent j b sent' hj)
      · obtain ⟨rfl, -⟩ := Prod.mk.inj (Option.some.inj hj)
        exact absurd he (hsent i a sent hi)
      · exact h.alone i j a b sent sent' hi hj he
    · intro c hc
      rw [hcompleted] at hc
      rw [hkeys, Dict.get?_set_of_ne _ _ (hdone c hc).symm]
      exact h.done c hc
    · intro c hc i b sent hi
      rw [hcompleted] at hc
      rw [hwaiting] at hi
      split at hi
      · obtain ⟨rfl, -⟩ := Prod.mk.inj (Option.some.inj hi)
        exact (hdone c hc).symm
      · exact h.over c hc i b sent hi
  | failed i call sent reply hwaits hkeys hcompleted _ hwaiting =>
    have hother : ∀ j b sent', s'.waiting j = some (b, sent') → s.waiting j = some (b, sent') ∧ b.key ≠ call.key := by
      intro j b sent' hj
      rw [hwaiting] at hj
      split at hj
      · cases hj
      next hne => exact ⟨hj, fun he => hne (h.alone j i b call sent' sent hj hwaits he).symm⟩
    have hget : ∀ key, key ≠ call.key → s'.commitKeys.get? key = s.commitKeys.get? key := fun key hne => by
      rw [hkeys, Dict.get?, Table.get?_erase, if_neg hne.symm, Dict.get?]
    refine ⟨?_, ?_, ?_, ?_, hcompleted ▸ h.once⟩
    · intro j b sent' hj
      obtain ⟨hj, hne⟩ := hother j b sent' hj
      rw [hget _ hne]
      exact h.sent j b sent' hj
    · exact fun j k a b sent' sent'' hj hk => h.alone j k a b sent' sent'' (hother j a _ hj).1 (hother k b _ hk).1
    · intro c hc
      rw [hcompleted] at hc
      rw [hget _ (h.over c hc i call sent hwaits).symm]
      exact h.done c hc
    · exact fun c hc j b sent' hj => h.over c (hcompleted ▸ hc) j b sent' (hother j b sent' hj).1
  | done i call proposal token reply hwaits hkeys hcompleted _ _ hwaiting =>
    have hother : ∀ j b sent, s'.waiting j = some (b, sent) → s.waiting j = some (b, sent) ∧ b.key ≠ call.key := by
      intro j b sent hj
      rw [hwaiting] at hj
      split at hj
      · cases hj
      next hne => exact ⟨hj, fun he => hne (h.alone j i b call sent _ hj hwaits he).symm⟩
    refine ⟨?_, ?_, ?_, ?_, ?_⟩
    · exact fun j b sent hj => hkeys ▸ h.sent j b sent (hother j b sent hj).1
    · exact fun j k a b sent sent' hj hk => h.alone j k a b sent sent' (hother j a _ hj).1 (hother k b _ hk).1
    · intro c hc
      rw [hcompleted] at hc
      rw [hkeys]
      obtain hc | hc := mem_append.mp hc
      · exact h.done c hc
      · obtain rfl := mem_singleton.mp hc
        exact h.sent i call _ hwaits
    · intro c hc j b sent hj
      rw [hcompleted] at hc
      obtain hc | hc := mem_append.mp hc
      · exact h.over c hc j b sent (hother j b sent hj).1
      · obtain rfl := mem_singleton.mp hc
        exact (hother j b sent hj).2
    · rw [hcompleted, map_append]
      refine List.Nodup.append h.once (by simp) ?_
      intro key hkey hmem
      obtain ⟨c, hc, rfl⟩ := List.mem_map.mp hkey
      obtain he : c.key = call.key := by simpa using hmem
      exact h.over c hc i call _ hwaits he.symm

theorem TokensSpent.step {s' : ActionProcess} (h : s.TokensSpent) (hok : s.Orderly texts a)
    (ha : s.step texts a = some s') : s'.TokensSpent := by
  cases step_change ha with
  | quiet _ _ hcompleted htokens hwaiting =>
    refine ⟨?_, ?_, ?_, ?_, hcompleted ▸ h.once⟩
    · exact fun i call proposal token hi => (htokens _).trans (h.sent i call proposal token (hwaiting i _ hi))
    · exact fun i j a b proposal t t' hi hj => h.alone i j a b proposal t t' (hwaiting i _ hi) (hwaiting j _ hj)
    · exact fun p q token hp hq => h.apart p q token ((htokens p).symm.trans hp) ((htokens q).symm.trans hq)
    · exact fun c hc p hp => h.spent c (hcompleted ▸ hc) p ((htokens p).symm.trans hp)
  | filed ctx result _ hcompleted hwaiting htokens =>
    have hnew : ∀ token, s'.tokenOf s.proposals.length = some token → ¬s.Knows token := fun token ht =>
      hok token (by rwa [htokens, if_pos rfl] at ht)
    have hold : ∀ p token, p ≠ s.proposals.length → s'.tokenOf p = some token → s.tokenOf p = some token := by
      intro p token hne hp
      rwa [htokens, if_neg hne] at hp
    refine ⟨?_, ?_, ?_, ?_, hcompleted ▸ h.once⟩
    · intro i call proposal token hi
      have hsent := h.sent i call proposal token (hwaiting i ▸ hi)
      rw [htokens, if_neg, hsent]
      rintro rfl
      simp [tokenOf] at hsent
    · exact fun i j a b proposal t t' hi hj => h.alone i j a b proposal t t' (hwaiting i ▸ hi) (hwaiting j ▸ hj)
    · intro p q token hp hq
      by_cases hpn : p = s.proposals.length <;> by_cases hqn : q = s.proposals.length
      · rw [hpn, hqn]
      · exact absurd (Or.inl ⟨q, hold q token hqn hq⟩) (hnew token (hpn ▸ hp))
      · exact absurd (Or.inl ⟨p, hold p token hpn hp⟩) (hnew token (hqn ▸ hq))
      · exact h.apart p q token (hold p token hpn hp) (hold q token hqn hq)
    · intro c hc p hp
      rw [hcompleted] at hc
      by_cases hpn : p = s.proposals.length
      · exact hnew c.token (hpn ▸ hp) (Or.inr ⟨c, hc, rfl⟩)
      · exact h.spent c hc p (hold p _ hpn hp)
  | opened ctx call idempotencyKey proposal token _ hstage _ hcompleted htokens hwaiting =>
    refine ⟨?_, ?_, ?_, ?_, hcompleted ▸ h.once⟩
    · intro i b p t hi
      rw [hwaiting] at hi
      rw [htokens]
      split at hi
      · obtain ⟨rfl, rfl, rfl⟩ : call = b ∧ proposal = p ∧ token = t := by simpa using hi
        exact (committing_iff hstage).2
      · exact h.sent i b p t hi
    · intro i j a b p t t' hi hj
      rw [hwaiting] at hi hj
      split at hi <;> split at hj
      · omega
      · obtain ⟨-, rfl, -⟩ : call = a ∧ proposal = p ∧ token = t := by simpa using hi
        exact absurd hj (hok proposal token hstage j b t')
      · obtain ⟨-, rfl, -⟩ : call = b ∧ proposal = p ∧ token = t' := by simpa using hj
        exact absurd hi (hok proposal token hstage i a t)
      · exact h.alone i j a b p t t' hi hj
    · exact fun p q t hp hq => h.apart p q t ((htokens p).symm.trans hp) ((htokens q).symm.trans hq)
    · exact fun c hc p hp => h.spent c (hcompleted ▸ hc) p ((htokens p).symm.trans hp)
  | failed i call sent reply _ _ hcompleted htokens hwaiting =>
    have hother : ∀ j w, s'.waiting j = some w → s.waiting j = some w := by
      intro j w hj
      rw [hwaiting] at hj
      split at hj
      · cases hj
      · exact hj
    refine ⟨?_, ?_, ?_, ?_, hcompleted ▸ h.once⟩
    · exact fun j b p t hj => (htokens p).trans (h.sent j b p t (hother j _ hj))
    · exact fun j k a b p t t' hj hk => h.alone j k a b p t t' (hother j _ hj) (hother k _ hk)
    · exact fun p q t hp hq => h.apart p q t ((htokens p).symm.trans hp) ((htokens q).symm.trans hq)
    · exact fun c hc p hp => h.spent c (hcompleted ▸ hc) p ((htokens p).symm.trans hp)
  | done i call proposal token reply hwaits _ hcompleted htokens hspent hwaiting =>
    have hgone : s'.tokenOf proposal = none := hspent fun type message he => by
      subst he
      exact hok
    have hold : ∀ p t, s'.tokenOf p = some t → s.tokenOf p = some t := by
      intro p t hp
      by_cases hpp : p = proposal
      · rw [hpp, hgone] at hp
        cases hp
      · rwa [htokens p hpp] at hp
    have hother : ∀ j b p t, s'.waiting j = some (b, p, t) → s.waiting j = some (b, p, t) ∧ p ≠ proposal := by
      intro j b p t hj
      rw [hwaiting] at hj
      split at hj
      · cases hj
      next hne =>
        refine ⟨hj, ?_⟩
        rintro rfl
        exact hne (h.alone j i b call p t token hj hwaits).symm
    have htoken := h.sent i call proposal token hwaits
    refine ⟨?_, ?_, ?_, ?_, ?_⟩
    · intro j b p t hj
      obtain ⟨hj, hne⟩ := hother j b p t hj
      rw [htokens p hne]
      exact h.sent j b p t hj
    · exact fun j k a b p t t' hj hk => h.alone j k a b p t t' (hother j a p t hj).1 (hother k b p t' hk).1
    · exact fun p q t hp hq => h.apart p q t (hold p t hp) (hold q t hq)
    · intro c hc p hp
      rw [hcompleted] at hc
      obtain hc | hc := mem_append.mp hc
      · exact h.spent c hc p (hold p _ hp)
      · obtain rfl := mem_singleton.mp hc
        obtain rfl := h.apart p proposal token (hold p _ hp) htoken
        rw [hgone] at hp
        cases hp
    · rw [hcompleted, map_append]
      refine List.Nodup.append h.once (by simp) ?_
      intro t ht hmem
      obtain ⟨c, hc, rfl⟩ := List.mem_map.mp ht
      obtain rfl : c.token = token := by simpa using hmem
      exact h.spent c hc proposal htoken

theorem committed_once (texts : ActionTexts) (steps : List ActionStep)
    (h : Machine.Along (step texts) (Orderly texts) {} steps) :
    ∀ before after s, steps = before ++ after → Machine.exec (step texts) {} before = some s →
      (s.completed.map CompletedCommit.token).Nodup ∧ (s.completed.map CompletedCommit.key).Nodup ∧
      (∀ call ∈ s.calls, ∀ proposal token, call.stage = .committing proposal token →
        s.commitKeys.get? call.key = some call.approvalId) ∧
      ∀ c ∈ s.completed, s.commitKeys.get? c.key = some c.approvalId := by
  rintro before after s rfl he
  have hempty : KeysBound {} ∧ TokensSpent {} :=
    ⟨⟨by simp [waiting], by simp [waiting], by simp, by simp, by simp⟩,
      ⟨by simp [waiting], by simp [waiting], by simp [tokenOf], by simp, by simp⟩⟩
  have hkeys : s.KeysBound := Machine.invariant (I := KeysBound) (fun _ _ _ h ha => h.step ha) hempty.1 he
  have htokens : s.TokensSpent := Machine.invariant_along (I := TokensSpent)
    (fun _ _ _ h hok ha => h.step hok ha) hempty.2 (Machine.along_append.mp h).1 he
  refine ⟨htokens.once, hkeys.once, ?_, hkeys.done⟩
  intro call hcall proposal token hstage
  obtain ⟨i, hi⟩ := mem_iff_getElem?.mp hcall
  exact hkeys.sent i call (proposal, token) (by simp [waiting, hi, hstage, CommitStage.sent?])

/-! A proposal that is committed under one key, and one that is committed under two keys at once. -/

def stringTexts : ActionTexts where
  text value := match value with
    | .str text => text
    | _ => "?"
  upper := id

def seller : ActionContext where
  client := 0
  workspaceId := "w"

def offered : BrokerReply :=
  .payload (((Dict.empty.set "action_request_id" (.str "p1")).set "confirmation_token" (.str "t1")).set
    "eligible" (.bool true))

def carriedOut : BrokerReply := .payload (Dict.empty.set "status" (.str "EXECUTED"))

def oneKey : List ActionStep :=
  [.proposed seller offered, .commit seller "p1" "k1", .committed 0 carriedOut]

theorem oneKey_committed_once :
    ∃ s, Machine.exec (step stringTexts) {} oneKey = some s ∧ s.completed.map CompletedCommit.token = ["t1"] ∧
      (s.completed.map CompletedCommit.key).Nodup ∧
      ∀ c ∈ s.completed, s.commitKeys.get? c.key = some c.approvalId := by
  have horderly : Machine.Along (step stringTexts) (Orderly stringTexts) {} oneKey := by
    refine ⟨fun token _ hknown => ?_, fun s hs => ?_⟩
    · obtain ⟨q, hq⟩ | ⟨c, hc, -⟩ := hknown
      · simp [tokenOf] at hq
      · cases hc
    · obtain rfl := Option.some.inj hs
      refine ⟨fun proposal token _ index call token' hwaits => ?_, fun s _ => ⟨trivial, fun _ _ => trivial⟩⟩
      simp [waiting, propose_calls] at hwaits
  have hrun : ((Machine.exec (step stringTexts) {} oneKey).any fun s =>
      s.completed.map CompletedCommit.token = ["t1"]) = true := by decide
  obtain ⟨s, he, hs⟩ := (Option.any_eq_true _ _).mp hrun
  obtain ⟨-, honce, -, hbound⟩ := committed_once stringTexts oneKey horderly oneKey [] s (by simp) he
  exact ⟨s, he, of_decide_eq_true hs, honce, hbound⟩

def twoKeys : List ActionStep :=
  [.proposed seller offered, .commit seller "p1" "k1", .commit seller "p1" "k2",
    .committed 0 carriedOut, .committed 1 carriedOut]

theorem twoKeys_committed_twice :
    ¬∀ before after s, twoKeys = before ++ after → Machine.exec (step stringTexts) {} before = some s →
      (s.completed.map CompletedCommit.token).Nodup := by
  intro h
  have hrun : ((Machine.exec (step stringTexts) {} twoKeys).any fun s =>
      s.completed.map CompletedCommit.token = ["t1", "t1"]) = true := by decide
  obtain ⟨s, he, hs⟩ := (Option.any_eq_true _ _).mp hrun
  have hnodup := h twoKeys [] s (by simp) he
  rw [of_decide_eq_true hs] at hnodup
  simp at hnodup

end ActionProcess

end SelericSwarm.Agent
