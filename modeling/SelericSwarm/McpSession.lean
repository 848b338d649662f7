import Mathlib
import SelericSwarm.Machine

/-! The session handshake of the hosted MCP server, tool calls side by side on one event loop, and a
server that may expire sessions and lose answers. -/
open List Option

namespace SelericSwarm.Mcp

/-- Where a `call_tool` is suspended. `lost` is nothing before a 404, and then the session under which
the request that got it was sent; `left` are the attempts left, the current one included. -/
inductive Stage where
  | waiting (lost : Option (Option Nat))
  | initializing (lost : Option (Option Nat)) (left : Nat) (answer : Option Nat)
  | resting (lost : Option (Option Nat)) (left : Nat)
  | notifying (lost : Option (Option Nat)) (id : Nat)
  | posting (lost : Option (Option Nat)) (session under : Option Nat) (left : Nat) (processed : Bool)
  | backoff (lost : Option (Option Nat)) (session : Option Nat) (left : Nat)
  | over
  deriving DecidableEq

/-- Inside the lock of `_ensure_session`, before the session is set or behind it. -/
def Stage.initial : Stage → Bool
  | .initializing .. | .resting .. => true
  | _ => false

def Stage.notifies : Stage → Bool
  | .notifying .. => true
  | _ => false

structure ToolCall where
  committing : Bool
  stage : Stage
  reinits : Nat := 0
  processed : Nat := 0
  deriving DecidableEq

/-- A request `tools/call` on its way: the session in its header, whether that had been confirmed, the
session a 404 has lost before it, and the sessions expired when that in its header was created. -/
structure Sent where
  under : Option Nat
  confirmed : Bool
  lost : Option (Option Nat)
  older : List Nat
  deriving DecidableEq

/-- A request that the client has given up, and that may still reach the server. -/
inductive Adrift where
  | handshake
  | notification (id : Nat)
  | toolsCall (call : Nat) (under : Option Nat)
  deriving DecidableEq

/-- `session` stands for `_session_id` and the header, which change together. The server numbers the
sessions it creates; `created` holds for each those expired by then, `confirmed` are those whose
`notifications/initialized` it has got, `installed` those the client has used, and `discarded` those it
has dropped, each behind the session of the request that got the 404. -/
structure Transport where
  session : Option Nat := none
  lock : Option Nat := none
  calls : List ToolCall := []
  created : List (List Nat) := []
  expired : List Nat := []
  confirmed : List Nat := []
  installed : List Nat := []
  sent : List Sent := []
  discarded : List (Option Nat × Nat) := []
  adrift : List Adrift := []

/-- How a request ends: `failure` is what `_is_retryable` retries, `refused` any other exception; a request
that the server has not got then may still be on its way. -/
inductive Reply where
  | response
  | notFound
  | failure (adrift : Bool)
  | refused (adrift : Bool)
  deriving DecidableEq

def Reply.leaves (request : Adrift) : Reply → List Adrift
  | .failure true | .refused true => [request]
  | _ => []

/-- `process` is the server's part; the others are the client's, but for `expire`. -/
inductive McpStep where
  | start (committing : Bool)
  | enter (call : Nat)
  | process (call : Nat)
  | reply (call : Nat) (answer : Reply)
  | retry (call : Nat)
  | arrive (request : Nat)
  | expire (session : Nat)

namespace Transport
variable (s : Transport)

def put (i : Nat) (call : ToolCall) : Transport := { s with calls := s.calls.set i call }

/-- The sessions that had expired when this one was created. -/
def older (id : Nat) : List Nat := s.created[id]?.getD []

/-- `_post` of `tools/call`, with the headers as they are now. -/
def post (i : Nat) (call : ToolCall) (lost : Option (Option Nat)) (session : Option Nat) (left : Nat) : Transport :=
  { s with
    calls := s.calls.set i { call with stage := .posting lost session s.session left false }
    sent := s.sent ++ [{
      under := s.session
      confirmed := s.session.any (· ∈ s.confirmed)
      lost
      older := s.session.elim [] s.older }] }

/-- `_ensure_session` and the first attempt, up to where the call waits. -/
def ensureSession (i : Nat) (call : ToolCall) (lost : Option (Option Nat)) : Transport :=
  if s.session.isSome then s.post i call lost s.session 3 else s.put i { call with stage := .waiting lost }

def dropSession (under : Option Nat) (stale : Nat) : Transport :=
  if s.session = some stale then { s with session := none, discarded := s.discarded ++ [(under, stale)] } else s

/-- The call ends, and the lock with it if it holds it. -/
def fail (i : Nat) (call : ToolCall) : Transport :=
  { s with
    calls := s.calls.set i { call with stage := .over }
    lock := if s.lock = some i then none else s.lock }

def enter (i : Nat) (call : ToolCall) (lost : Option (Option Nat)) : Transport :=
  if s.session.isSome then s.post i call lost s.session 3
  else { s with
    lock := some i
    calls := s.calls.set i
      { call with stage := .initializing lost 3 none, reinits := call.reinits + if lost.isSome then 1 else 0 } }

/-- The server creates a session, learns that one is in use, or carries out a tool under a live one. -/
def process (i : Nat) (call : ToolCall) : Option Transport :=
  match call.stage with
  | .initializing lost left none => some
    { s with
      created := s.created ++ [s.expired]
      calls := s.calls.set i { call with stage := .initializing lost left (some s.created.length) } }
  | .notifying _ id => if id ∈ s.expired then none else some { s with confirmed := id :: s.confirmed }
  | .posting lost session (some under) left false =>
    if under ∈ s.expired then none
    else some (s.put i
      { call with stage := .posting lost session (some under) left true, processed := call.processed + 1 })
  | _ => none

/-- The answer to `initialize`. -/
def initialized (i : Nat) (call : ToolCall) (lost : Option (Option Nat)) (left : Nat) (got : Option Nat) :
    Reply → Option Transport
  | .response => got.map fun id =>
    { s with
      session := some id
      installed := s.installed ++ [id]
      calls := s.calls.set i { call with stage := .notifying lost id } }
  | .failure _ => some (if 1 < left then s.put i { call with stage := .resting lost (left - 1) } else s.fail i call)
  | .notFound | .refused _ => some (s.fail i call)

/-- The answer to `notifications/initialized`: any response will do. -/
def notified (i : Nat) (call : ToolCall) (lost : Option (Option Nat)) : Reply → Transport
  | .response | .notFound => ({ s with lock := none } : Transport).post i call lost s.session 3
  | .failure _ | .refused _ => s.fail i call

/-- A 404 for the first request starts a new session; a second one is raised. -/
def notFound (i : Nat) (call : ToolCall) (lost : Option (Option Nat)) (session under : Option Nat) : Transport :=
  match lost, session with
  | none, some stale => (s.dropSession under stale).ensureSession i call (some under)
  | _, _ => s.put i { call with stage := .over }

/-- The answer to `tools/call`; only a session that has expired or is missing gives a 404. -/
def answered (i : Nat) (call : ToolCall) (lost : Option (Option Nat)) (session under : Option Nat) (left : Nat)
    (processed : Bool) : Reply → Option Transport
  | .response => if processed then some (s.put i { call with stage := .over }) else none
  | .notFound =>
    if !processed && under.all (· ∈ s.expired) then some (s.notFound i call lost session under) else none
  | .failure _ =>
    some (s.put i { call with stage := if 1 < left then .backoff lost session (left - 1) else .over })
  | .refused _ => some (s.put i { call with stage := .over })

def reply (i : Nat) (call : ToolCall) (answer : Reply) : Option Transport :=
  match call.stage with
  | .initializing lost left got =>
    ({ s with adrift := s.adrift ++ if got = none then answer.leaves .handshake else [] } : Transport).initialized
      i call lost left got answer
  | .notifying lost id =>
    some (({ s with adrift := s.adrift ++ answer.leaves (.notification id) } : Transport).notified i call lost answer)
  | .posting lost session under left processed =>
    ({ s with adrift := s.adrift ++ if processed then [] else answer.leaves (.toolsCall i under) } : Transport).answered
      i call lost session under left processed answer
  | _ => none

def retry (i : Nat) (call : ToolCall) : Option Transport :=
  match call.stage with
  | .resting lost left => some (s.put i { call with stage := .initializing lost left none })
  | .backoff lost session left => some (s.post i call lost session left)
  | _ => none

/-- A request reaches the server after all; under an expired session, or none, nothing comes of it. -/
def arrive : Adrift → Transport
  | .handshake => { s with created := s.created ++ [s.expired] }
  | .notification id => { s with confirmed := if id ∈ s.expired then s.confirmed else id :: s.confirmed }
  | .toolsCall i under =>
    if under.all (· ∈ s.expired) then s
    else { s with calls := s.calls.modify i fun call => { call with processed := call.processed + 1 } }

def step (s : Transport) : McpStep → Option Transport
  | .start committing =>
    some (({ s with calls := s.calls ++ [⟨committing, .over, 0, 0⟩] } : Transport).ensureSession s.calls.length
      ⟨committing, .over, 0, 0⟩ none)
  | .enter i => s.calls[i]?.bind fun call => match call.stage with
    | .waiting lost => if s.lock = none then some (s.enter i call lost) else none
    | _ => none
  | .process i => s.calls[i]?.bind (s.process i)
  | .reply i answer => s.calls[i]?.bind fun call => s.reply i call answer
  | .retry i => s.calls[i]?.bind (s.retry i)
  | .arrive k => s.adrift[k]?.map ({ s with adrift := s.adrift.eraseIdx k } : Transport).arrive
  | .expire id =>
    if id < s.created.length ∧ id ∉ s.expired then some { s with expired := s.expired ++ [id] } else none

/-! What the protocol asks for, and the steps that leave it in place. -/

end Transport

/-- Under a confirmed session, and behind a 404 under one created after the session lost had expired. -/
def Sent.Lawful (m : Sent) : Prop :=
  ∃ id, m.under = some id ∧ m.confirmed = true ∧ ∀ gone, m.lost = some (some gone) → gone ∈ m.older

def Stage.announces : Stage → Option Nat
  | .notifying _ id => some id
  | _ => none

namespace Transport
variable (s : Transport)

/-- A notification is on its way that the server has not got. -/
def Undelivered : Prop := ∃ call ∈ s.calls, ∃ id ∈ call.stage.announces, id ∉ s.confirmed

instance : Decidable s.Undelivered :=
  inferInstanceAs (Decidable (∃ call ∈ s.calls, ∃ id ∈ call.stage.announces, id ∉ s.confirmed))

def SoundReply (call : ToolCall) (answer : Reply) : Prop :=
  match call.stage with
  | .notifying _ id =>
    (s.session = some id → id ∈ s.confirmed) ∧ (answer = .response ∨ answer = .notFound → s.session = some id)
  | .posting lost session under left processed =>
    (answer = .notFound → lost = none → session = under ∧ ¬s.Undelivered) ∧
      (call.committing = true → 1 < left → answer ≠ .failure true ∧ (answer = .failure false → processed = false))
  | _ => True

/-- No call starts, posts again or gets its 404 while a notification is undelivered; the session is in place
when a request is posted again and when its notification is answered, and the one that a 404 is about; and a
request of a committing tool that is posted again has not reached the server and will not. -/
def Sound (s : Transport) : McpStep → Prop
  | .start _ => ¬s.Undelivered
  | .reply i answer => ∀ call ∈ s.calls[i]?, s.SoundReply call answer
  | .retry i => ∀ call ∈ s.calls[i]?, call.stage.initial = false → s.session.isSome ∧ ¬s.Undelivered
  | _ => True

instance (call : ToolCall) (answer : Reply) : Decidable (s.SoundReply call answer) := by
  unfold SoundReply
  split <;> infer_instance

instance (a : McpStep) : Decidable (s.Sound a) := by
  unfold Sound
  split <;> infer_instance

end Transport

/-! What holds of the transport, and of each call. -/

/-- Before a re-initialisation. -/
def Stage.fresh : Stage → Bool
  | .waiting _ => true
  | .initializing lost .. | .resting lost .. | .notifying lost .. | .posting lost .. | .backoff lost .. => lost.isNone
  | .over => false

/-- Whether the server may still carry out what the call is about. -/
def Stage.pending : Stage → Nat
  | .posting _ _ _ _ true | .over => 0
  | _ => 1

def Adrift.calls (j : Nat) : Adrift → Bool
  | .toolsCall i _ => i = j
  | _ => false

namespace Transport

/-- The session lost is one that was used, and is not used any more. -/
def Lost (s : Transport) (lost : Option (Option Nat)) : Prop :=
  ∀ under, lost = some under → ∃ gone, under = some gone ∧ gone ∈ s.installed ∧ s.session ≠ some gone

def Fine (s : Transport) : Stage → Prop
  | .waiting lost => s.Lost lost
  | .initializing lost _ answer => s.Lost lost ∧ s.session = none ∧
      ∀ t ∈ answer, t < s.created.length ∧ ∀ x ∈ s.installed, x ∈ s.older t
  | .resting lost _ => s.Lost lost ∧ s.session = none
  | .notifying lost id => s.Lost lost ∧ ∀ t, s.session = some t → t = id
  | .posting lost session _ _ _ | .backoff lost session _ => s.Lost lost ∧ ∀ u, session = some u → u ∈ s.installed
  | .over => True

structure Holds (s : Transport) (j : Nat) (call : ToolCall) : Prop where
  fine : s.Fine call.stage
  lock : (call.stage.initial || call.stage.notifies) = true ↔ s.lock = some j
  reinits : call.reinits ≤ 1
  fresh : call.stage.fresh = true → call.reinits = 0
  once : call.committing = true → call.processed + s.adrift.countP (·.calls j) + call.stage.pending ≤ 1

/-- The numbers of sessions only grow, and a session is given up only once it has expired. -/
structure World (s : Transport) : Prop where
  past : ∀ t, ∀ x ∈ s.older t, x < t ∧ x ∈ s.expired
  expired : ∀ x ∈ s.expired, x < s.created.length
  installed : ∀ x ∈ s.installed, x < s.created.length
  gone : s.session = none → ∀ x ∈ s.installed, x ∈ s.expired
  used : ∀ id, s.session = some id → id ∈ s.installed ∧ ∀ x ∈ s.installed, x = id ∨ x ∈ s.older id
  sent : ∀ m ∈ s.sent, m.Lawful
  discarded : ∀ d ∈ s.discarded, d.1 = some d.2

structure Kept (s : Transport) : Prop extends World s where
  confirmed : ∀ id, s.session = some id → id ∈ s.confirmed ∨ ∃ call ∈ s.calls, call.stage.announces = some id
  calls : ∀ j call, s.calls[j]? = some call → s.Holds j call
  adrift : ∀ j, s.calls.length ≤ j → s.adrift.countP (·.calls j) = 0
  holder : ∀ j, s.lock = some j → j < s.calls.length

/-- What a step of one call leaves in place for the others. -/
structure Frame (s s' : Transport) (i : Nat) : Prop where
  installed : ∀ x ∈ s.installed, x ∈ s'.installed ∧ (s.session ≠ some x → s'.session ≠ some x)
  created : ∀ t < s.created.length, t < s'.created.length ∧ s'.older t = s.older t
  held : (∃ j ≠ i, s.lock = some j) → (s'.session = none ∨ s'.session = s.session) ∧ s'.installed = s.installed
  lock : ∀ j ≠ i, (s'.lock = some j ↔ s.lock = some j)
  adrift : ∀ j ≠ i, s'.adrift.countP (·.calls j) = s.adrift.countP (·.calls j)

variable {s s' : Transport} {i j : Nat} {call call' : ToolCall} {lost : Option (Option Nat)}

theorem Lost.frame (h : s.Lost lost) (hf : Frame s s' i) : s'.Lost lost := by
  intro under hunder
  obtain ⟨gone, rfl, hmem, hne⟩ := h under hunder
  exact ⟨gone, rfl, (hf.installed gone hmem).1, (hf.installed gone hmem).2 hne⟩

theorem Holds.frame (h : s.Holds j call) (hf : Frame s s' i) (hne : j ≠ i) : s'.Holds j call := by
  have hheld (hin : (call.stage.initial || call.stage.notifies) = true) := hf.held ⟨j, hne, h.lock.mp hin⟩
  refine ⟨?_, by rw [h.lock, hf.lock j hne], h.reinits, h.fresh, by rw [hf.adrift j hne]; exact h.once⟩
  have hfine := h.fine
  revert hfine hheld
  cases call.stage with
  | waiting lost => exact fun _ hfine => Lost.frame hfine hf
  | initializing lost left answer =>
    rintro hheld ⟨hlost, hnone, hanswer⟩
    obtain ⟨hsession, hinstalled⟩ := hheld rfl
    refine ⟨hlost.frame hf, ?_, fun t ht => ⟨(hf.created t (hanswer t ht).1).1, fun x hx => ?_⟩⟩
    · obtain hsession | hsession := hsession
      · exact hsession
      · rw [hsession, hnone]
    · rw [hinstalled] at hx
      rw [(hf.created t (hanswer t ht).1).2]
      exact (hanswer t ht).2 x hx
  | resting lost left =>
    rintro hheld ⟨hlost, hnone⟩
    obtain ⟨hsession | hsession, -⟩ := hheld rfl
    · exact ⟨hlost.frame hf, hsession⟩
    · exact ⟨hlost.frame hf, hsession.trans hnone⟩
  | notifying lost id =>
    rintro hheld ⟨hlost, hid⟩
    refine ⟨hlost.frame hf, fun t ht => ?_⟩
    obtain ⟨hsession | hsession, -⟩ := hheld rfl
    · rw [hsession] at ht
      cases ht
    · exact hid t (hsession ▸ ht)
  | posting lost session under left processed =>
    rintro - ⟨hlost, hsession⟩
    exact ⟨hlost.frame hf, fun u hu => (hf.installed u (hsession u hu)).1⟩
  | backoff lost session left =>
    rintro - ⟨hlost, hsession⟩
    exact ⟨hlost.frame hf, fun u hu => (hf.installed u (hsession u hu)).1⟩
  | «over» => exact fun _ _ => trivial

theorem Kept.update (h : Kept s) (hi : i < s.calls.length) (call' : ToolCall) (hcalls : s'.calls = s.calls.set i call') (hf : Frame s s' i)
    (hworld : World s') (hcall : s'.Holds i call')
    (hconfirmed : ∀ id, s'.session = some id → id ∈ s'.confirmed ∨ ∃ call ∈ s'.calls, call.stage.announces = some id) :
    Kept s' := by
  refine ⟨hworld, hconfirmed, fun j call hj => ?_, fun j hj => ?_, fun j hj => ?_⟩
  · rw [hcalls, List.getElem?_set] at hj
    split at hj
    · rename_i heq
      rw [← Option.some.inj hj, ← heq]
      exact hcall
    · rename_i hne
      exact (h.calls j call hj).frame hf (Ne.symm hne)
  · rw [hcalls, length_set] at hj
    rw [hf.adrift j (by omega)]
    exact h.adrift j hj
  · rw [hcalls, length_set]
    by_cases heq : j = i
    · exact heq ▸ hi
    · exact h.holder j ((hf.lock j heq).mp hj)

theorem Frame.refl (s : Transport) (i : Nat) : Frame s s i :=
  ⟨fun _ hx => ⟨hx, fun hne => hne⟩, fun _ ht => ⟨ht, rfl⟩, fun _ => ⟨Or.inr rfl, rfl⟩, fun _ _ => Iff.rfl, fun _ _ => rfl⟩

theorem Kept.delivered (h : Kept s) (hund : ¬s.Undelivered) {id : Nat} (hid : s.session = some id) : id ∈ s.confirmed := by
  obtain hconfirmed | ⟨call, hcall, hannounces⟩ := h.confirmed id hid
  · exact hconfirmed
  · by_contra hnot
    exact hund ⟨call, hcall, id, hannounces, hnot⟩

/-- What one call needs to keep beside its stage. -/
structure Counts (s : Transport) (i : Nat) (call : ToolCall) (lost : Option (Option Nat)) : Prop where
  reinits : call.reinits ≤ 1
  fresh : lost.isNone = true → call.reinits = 0
  once : call.committing = true → call.processed + s.adrift.countP (·.calls i) = 0

theorem World.post (h : World s) {id : Nat} (hid : s.session = some id) (hconfirmed : id ∈ s.confirmed)
    (hlost : s.Lost lost) (session : Option Nat) (left : Nat) : World (s.post i call lost session left) := by
  refine ⟨h.past, h.expired, h.installed, h.gone, h.used, fun m hm => ?_, h.discarded⟩
  obtain hm | hm := mem_append.mp hm
  · exact h.sent m hm
  · rw [mem_singleton.mp hm]
    refine ⟨id, hid, by simp [hid, hconfirmed], fun gone hgone => ?_⟩
    obtain ⟨gone', heq, hmem, hne⟩ := hlost (some gone) hgone
    obtain rfl := Option.some.inj heq
    simp only [hid, elim_some]
    refine ((h.used id hid).2 gone hmem).resolve_left fun heq => hne ?_
    rw [hid, heq]

variable {s₁ : Transport}

section
variable (h : Kept s) (hi : i < s.calls.length) (hf : Frame s s₁ i) (hw : World s₁) (hcalls : s₁.calls = s.calls)
include h hi hf hw hcalls

theorem Kept.post {id : Nat} (hid : s₁.session = some id) (hconfirmed : id ∈ s₁.confirmed) (hlost : s₁.Lost lost)
    {session : Option Nat} (hsession : ∀ u, session = some u → u ∈ s₁.installed) (hlock : s₁.lock ≠ some i)
    (hcounts : s₁.Counts i call lost) (left : Nat) : Kept (s₁.post i call lost session left) := by
  have hworld : World (s₁.post i call lost session left) := hw.post hid hconfirmed hlost session left
  refine h.update hi { call with stage := .posting lost session s₁.session left false } (by rw [Transport.post, hcalls])
    ⟨hf.installed, hf.created, hf.held, hf.lock, hf.adrift⟩ hworld
    ⟨⟨hlost, hsession⟩, ?_, hcounts.reinits, hcounts.fresh, fun hcommitting => ?_⟩ ?_
  · simp [Stage.initial, Stage.notifies, Transport.post, hlock]
  · have honce := hcounts.once hcommitting
    simp only [Transport.post, Stage.pending]
    omega
  · intro id' hid'
    have heq : id = id' := Option.some.inj (hid.symm.trans hid')
    exact Or.inl (heq ▸ hconfirmed)

theorem Kept.rest (hcall : s₁.Holds i call') (hconfirmed : ∀ id, s₁.session = some id →
      id ∈ s₁.confirmed ∨ ∃ call ∈ s.calls.set i call', call.stage.announces = some id) : Kept (s₁.put i call') := by
  refine h.update hi call' (by rw [Transport.put, hcalls]) ⟨hf.installed, hf.created, hf.held, hf.lock, hf.adrift⟩
    ⟨hw.past, hw.expired, hw.installed, hw.gone, hw.used, hw.sent, hw.discarded⟩
    ⟨hcall.fine, hcall.lock, hcall.reinits, hcall.fresh, hcall.once⟩ ?_
  intro id hid
  rw [Transport.put, hcalls]
  exact hconfirmed id hid

theorem Kept.ensureSession (hconfirmed : ∀ id, s₁.session = some id → id ∈ s₁.confirmed) (hlost : s₁.Lost lost)
    (hlock : s₁.lock ≠ some i) (hcounts : s₁.Counts i call lost) (hfresh : call.reinits = 0) :
    Kept (s₁.ensureSession i call lost) := by
  unfold Transport.ensureSession
  cases hid : s₁.session with
  | some id =>
    simp only [isSome_some, if_true]
    refine h.post hi hf hw hcalls hid (hconfirmed id hid) hlost (fun u hu => ?_) hlock hcounts 3
    exact (hw.used u (hid.trans hu)).1
  | none =>
    simp only [isSome_none, Bool.false_eq_true, if_false]
    refine h.rest hi hf hw hcalls ⟨hlost, ?_, hcounts.reinits, fun _ => hfresh, fun hcommitting => ?_⟩ (by simp [hid])
    · simp [Stage.initial, Stage.notifies, hlock]
    · have honce := hcounts.once hcommitting
      simp only [Stage.pending]
      omega

end

/-! The client's steps. -/

theorem Kept.start (h : Kept s) (hund : ¬s.Undelivered) (committing : Bool) :
    Kept (({ s with calls := s.calls ++ [⟨committing, .over, 0, 0⟩] } : Transport).ensureSession s.calls.length
      ⟨committing, .over, 0, 0⟩ none) := by
  have hlock : s.lock ≠ some s.calls.length := fun hlock => absurd (h.holder _ hlock) (Nat.lt_irrefl _)
  have hnone : s.adrift.countP (·.calls s.calls.length) = 0 := h.adrift _ (Nat.le_refl _)
  have hkept : Kept { s with calls := s.calls ++ [⟨committing, .over, 0, 0⟩] } := by
    refine ⟨⟨h.past, h.expired, h.installed, h.gone, h.used, h.sent, h.discarded⟩, fun id hid => ?_, fun j call hj => ?_,
      fun j hj => h.adrift j ?_, fun j hj => ?_⟩
    · obtain hconfirmed | ⟨call, hcall, hannounces⟩ := h.confirmed id hid
      · exact Or.inl hconfirmed
      · exact Or.inr ⟨call, mem_append_left _ hcall, hannounces⟩
    · obtain hold | ⟨heq, hcall⟩ : s.calls[j]? = some call ∨ j = s.calls.length ∧ call = ⟨committing, .over, 0, 0⟩ := by
        obtain hlt | hge := Nat.lt_or_ge j s.calls.length
        · exact Or.inl (List.getElem?_append_left hlt ▸ hj)
        · rw [List.getElem?_append_right hge, List.getElem?_singleton] at hj
          split at hj
          · exact Or.inr ⟨by omega, (Option.some.inj hj).symm⟩
          · cases hj
      · have hholds := h.calls j call hold
        exact ⟨hholds.fine, hholds.lock, hholds.reinits, hholds.fresh, hholds.once⟩
      · subst heq hcall
        exact ⟨trivial, by simp [Stage.initial, Stage.notifies, hlock], Nat.zero_le 1, fun _ => rfl,
          by simp [Stage.pending, hnone]⟩
    · simp only [length_append, length_singleton] at hj
      omega
    · have := h.holder j hj
      simp only [length_append, length_singleton]
      omega
  refine hkept.ensureSession (by simp) (Frame.refl _ _) hkept.toWorld rfl (fun id hid => h.delivered hund hid)
    (fun under hunder => by cases hunder) hlock ⟨Nat.zero_le 1, fun _ => rfl, fun _ => ?_⟩ rfl
  simpa using hnone

theorem lt_of_call (hcall : s.calls[i]? = some call) : i < s.calls.length := by
  obtain ⟨hi, -⟩ := List.getElem?_eq_some_iff.mp hcall
  exact hi

theorem Kept.announced (h : Kept s) (hcall : s.calls[i]? = some call) (hstage : call.stage.announces = none) {id : Nat}
    (hid : s.session = some id) : id ∈ s.confirmed ∨ ∃ other ∈ s.calls.set i call', other.stage.announces = some id := by
  refine (h.confirmed id hid).imp_right fun ⟨other, hother, hannounces⟩ => ?_
  obtain ⟨j, hj⟩ := List.getElem?_of_mem hother
  have hne : i ≠ j := by
    rintro rfl
    rw [hcall] at hj
    obtain rfl := Option.some.inj hj
    rw [hstage] at hannounces
    cases hannounces
  exact ⟨other, mem_of_getElem? (by rw [List.getElem?_set_ne hne]; exact hj), hannounces⟩

/-- What the stages before the first post keep. -/
theorem Holds.counts (h : s.Holds i call) (hpending : call.stage.pending = 1)
    (hfresh : lost.isNone = true → call.stage.fresh = true) : s.Counts i call lost := by
  refine ⟨h.reinits, fun hlost => h.fresh (hfresh hlost), fun hcommitting => ?_⟩
  have honce := h.once hcommitting
  omega

theorem Kept.enter (h : Kept s) (hcall : s.calls[i]? = some call) (hstage : call.stage = .waiting lost)
    (hfree : s.lock = none) : Kept (s.enter i call lost) := by
  have hi := lt_of_call hcall
  have hholds := h.calls i call hcall
  have hlost : s.Lost lost := by
    have hfine := hholds.fine
    rw [hstage] at hfine
    exact hfine
  have hzero : call.reinits = 0 := hholds.fresh (by rw [hstage]; rfl)
  have hcounts : s.Counts i call lost := hholds.counts (by rw [hstage]; rfl) (fun _ => by rw [hstage]; rfl)
  unfold Transport.enter
  split
  · rename_i hsome
    obtain ⟨id, hid⟩ := isSome_iff_exists.mp hsome
    have hconfirmed : id ∈ s.confirmed := by
      obtain hconfirmed | ⟨other, hother, hannounces⟩ := h.confirmed id hid
      · exact hconfirmed
      · obtain ⟨j, hj⟩ := List.getElem?_of_mem hother
        have hlock := (h.calls j other hj).lock.mp (by
          cases hs : other.stage <;> rw [hs] at hannounces <;> first | rfl | cases hannounces)
        rw [hfree] at hlock
        cases hlock
    exact h.post hi (Frame.refl _ _) h.toWorld rfl hid hconfirmed hlost (fun u hu => (h.used u hu).1) (by simp [hfree])
      hcounts 3
  · rename_i hnone
    have hid : s.session = none := not_isSome_iff_eq_none.mp hnone
    refine h.update hi { call with stage := .initializing lost 3 none, reinits := call.reinits + if lost.isSome then 1 else 0 } rfl
      ⟨fun _ hx => ⟨hx, fun hne => hne⟩, fun _ ht => ⟨ht, rfl⟩, fun _ => ⟨Or.inr rfl, rfl⟩, fun j hne => ?_, fun _ _ => rfl⟩
      ⟨h.past, h.expired, h.installed, h.gone, h.used, h.sent, h.discarded⟩
      ⟨⟨hlost, hid, by simp⟩, by simp [Stage.initial], ?_, fun hfresh => ?_, fun hcommitting => ?_⟩ (by simp [hid])
    · simp [hfree, Ne.symm hne]
    · simp only [hzero]
      split <;> omega
    · simp only [Stage.fresh, isNone_iff_eq_none] at hfresh
      simp [hzero, hfresh]
    · have honce := hcounts.once hcommitting
      simp only [Stage.pending]
      omega

theorem Kept.retry (h : Kept s) (hcall : s.calls[i]? = some call)
    (hsound : call.stage.initial = false → s.session.isSome ∧ ¬s.Undelivered) (ha : s.retry i call = some s') : Kept s' := by
  have hi := lt_of_call hcall
  have hholds := h.calls i call hcall
  unfold Transport.retry at ha
  split at ha
  · rename_i lost left hstage
    obtain rfl := Option.some.inj ha
    obtain ⟨hlost, hnone⟩ : s.Lost lost ∧ s.session = none := by
      have hfine := hholds.fine
      rw [hstage] at hfine
      exact hfine
    refine h.rest hi (Frame.refl _ _) h.toWorld rfl ⟨⟨hlost, hnone, by simp⟩, ?_, hholds.reinits, fun hfresh => ?_,
      fun hcommitting => ?_⟩ (by simp [hnone])
    · rw [← hholds.lock, hstage]
      rfl
    · exact hholds.fresh (by rw [hstage]; exact hfresh)
    · have honce := hholds.once hcommitting
      rw [hstage] at honce
      exact honce
  · rename_i lost session left hstage
    obtain rfl := Option.some.inj ha
    obtain ⟨hlost, hsession⟩ : s.Lost lost ∧ ∀ u, session = some u → u ∈ s.installed := by
      have hfine := hholds.fine
      rw [hstage] at hfine
      exact hfine
    obtain ⟨hsome, hund⟩ := hsound (by rw [hstage]; rfl)
    obtain ⟨id, hid⟩ := isSome_iff_exists.mp hsome
    refine h.post hi (Frame.refl _ _) h.toWorld rfl hid (h.delivered hund hid) hlost hsession ?_
      (hholds.counts (by rw [hstage]; rfl) fun hnone => by rw [hstage]; exact hnone) left
    intro hlock
    have := hholds.lock.mpr hlock
    rw [hstage] at this
    cases this
  · cases ha

/-! The server's steps. -/

theorem older_append {t : Nat} (ht : t < s.created.length) (created : List Nat) :
    ({ s with created := s.created ++ [created] } : Transport).older t = s.older t := by
  rw [older, older, List.getElem?_append_left ht]

theorem older_new (s : Transport) : ({ s with created := s.created ++ [s.expired] } : Transport).older s.created.length = s.expired := by
  simp [older]

theorem World.create (h : World s) : World { s with created := s.created ++ [s.expired] } := by
  have hlength : ({ s with created := s.created ++ [s.expired] } : Transport).created.length = s.created.length + 1 := by simp
  refine ⟨fun t x hx => ?_, fun x hx => ?_, fun x hx => ?_, h.gone, fun id hid => ⟨(h.used id hid).1, fun x hx => ?_⟩,
    h.sent, h.discarded⟩
  · obtain hlt | hge := Nat.lt_or_ge t s.created.length
    · rw [older_append hlt] at hx
      exact h.past t x hx
    · obtain heq | hgt := Nat.eq_or_lt_of_le hge
      · subst heq
        rw [older_new] at hx
        exact ⟨h.expired x hx, hx⟩
      · rw [older, List.getElem?_eq_none (by rw [hlength]; omega)] at hx
        cases hx
  · rw [hlength]
    exact Nat.lt_succ_of_lt (h.expired x hx)
  · rw [hlength]
    exact Nat.lt_succ_of_lt (h.installed x hx)
  · rw [older_append (h.installed id (h.used id hid).1)]
    exact (h.used id hid).2 x hx

theorem Frame.create (s : Transport) (i : Nat) : Frame s { s with created := s.created ++ [s.expired] } i :=
  ⟨fun _ hx => ⟨hx, fun hne => hne⟩, fun t ht => ⟨by simp; omega, older_append ht _⟩, fun _ => ⟨Or.inr rfl, rfl⟩,
    fun _ _ => Iff.rfl, fun _ _ => rfl⟩

theorem Kept.outside (h : Kept s) (hcalls : s₁.calls = s.calls) (hf : Frame s s₁ s.calls.length) (hw : World s₁)
    (hlock : s₁.lock = s.lock) (hadrift : s₁.adrift.countP (·.calls s.calls.length) = 0)
    (hconfirmed : ∀ id, s₁.session = some id → id ∈ s₁.confirmed ∨ ∃ call ∈ s₁.calls, call.stage.announces = some id)
    (hmore : ∀ j, s.calls.length < j → s₁.adrift.countP (·.calls j) = 0) : Kept s₁ := by
  refine ⟨hw, hconfirmed, fun j call hj => ?_, fun j hj => ?_, fun j hj => ?_⟩
  · rw [hcalls] at hj
    exact (h.calls j call hj).frame hf (Nat.ne_of_lt (lt_of_call hj))
  · rw [hcalls] at hj
    obtain heq | hlt := Nat.eq_or_lt_of_le hj
    · exact heq ▸ hadrift
    · exact hmore j hlt
  · rw [hcalls]
    exact h.holder j (hlock ▸ hj)

theorem Kept.process (h : Kept s) (hcall : s.calls[i]? = some call) (ha : s.process i call = some s') : Kept s' := by
  have hi := lt_of_call hcall
  have hholds := h.calls i call hcall
  unfold Transport.process at ha
  split at ha
  · rename_i lost left hstage
    obtain rfl := Option.some.inj ha
    obtain ⟨hlost, hnone, -⟩ : s.Fine (.initializing lost left none) := hstage ▸ hholds.fine
    have hf := Frame.create s i
    have hw := h.toWorld.create
    refine h.update hi { call with stage := .initializing lost left (some s.created.length) } rfl
      ⟨hf.installed, hf.created, hf.held, hf.lock, hf.adrift⟩
      ⟨hw.past, hw.expired, hw.installed, hw.gone, hw.used, hw.sent, hw.discarded⟩
      ⟨⟨hlost, hnone, ?_⟩, ?_, hholds.reinits, fun hfresh => ?_, fun hcommitting => ?_⟩ (by simp [hnone])
    · intro t ht
      obtain rfl : s.created.length = t := Option.some.inj ht
      refine ⟨by simp, fun x hx => ?_⟩
      have hexpired := h.gone hnone x hx
      rw [← older_new s] at hexpired
      exact hexpired
    · rw [← hholds.lock, hstage]
      rfl
    · exact hholds.fresh (by rw [hstage]; exact hfresh)
    · have honce := hholds.once hcommitting
      rw [hstage] at honce
      exact honce
  · rename_i lost id hstage
    split at ha
    · cases ha
    · obtain rfl := Option.some.inj ha
      refine h.outside rfl ⟨fun _ hx => ⟨hx, fun hne => hne⟩, fun _ ht => ⟨ht, rfl⟩, fun _ => ⟨Or.inr rfl, rfl⟩,
        fun _ _ => Iff.rfl, fun _ _ => rfl⟩ ⟨h.past, h.expired, h.installed, h.gone, h.used, h.sent, h.discarded⟩ rfl
        (h.adrift _ (Nat.le_refl _)) (fun id' hid' => ?_) fun j hj => h.adrift j (Nat.le_of_lt hj)
      obtain hconfirmed | hannounced := h.confirmed id' hid'
      · exact Or.inl (mem_cons_of_mem id hconfirmed)
      · exact Or.inr hannounced
  · rename_i lost session under left hstage
    split at ha
    · cases ha
    · obtain rfl := Option.some.inj ha
      obtain ⟨hlost, hsession⟩ : s.Fine (.posting lost session (some under) left false) := hstage ▸ hholds.fine
      refine h.rest hi (Frame.refl _ _) h.toWorld rfl ⟨⟨hlost, hsession⟩, ?_, hholds.reinits, fun hfresh => ?_,
        fun hcommitting => ?_⟩ fun id hid => ?_
      · rw [← hholds.lock, hstage]
        rfl
      · exact hholds.fresh (by rw [hstage]; exact hfresh)
      · have honce := hholds.once hcommitting
        rw [hstage] at honce
        simp only [Stage.pending] at honce ⊢
        omega
      · exact h.announced hcall (by rw [hstage]; rfl) hid
  · cases ha

/-! The answers. -/

theorem countP_leaves {request : Adrift} (h : request.calls j = false) (answer : Reply) :
    (answer.leaves request).countP (·.calls j) = 0 := by
  unfold Reply.leaves
  split <;> simp [h]

theorem countP_leaves_le (request : Adrift) (j : Nat) (answer : Reply) :
    (answer.leaves request).countP (·.calls j) ≤ 1 := by
  unfold Reply.leaves
  split
  · exact countP_le_length
  · exact countP_le_length
  · simp

theorem Frame.drift (s : Transport) (i : Nat) {requests : List Adrift} (h : ∀ j ≠ i, requests.countP (·.calls j) = 0) :
    Frame s { s with adrift := s.adrift ++ requests } i :=
  ⟨fun _ hx => ⟨hx, fun hne => hne⟩, fun _ ht => ⟨ht, rfl⟩, fun _ => ⟨Or.inr rfl, rfl⟩, fun _ _ => Iff.rfl,
    fun j hj => by simp only [countP_append, h j hj, Nat.add_zero]⟩

theorem World.drift (h : World s) (requests : List Adrift) : World { s with adrift := s.adrift ++ requests } :=
  ⟨h.past, h.expired, h.installed, h.gone, h.used, h.sent, h.discarded⟩

theorem Kept.fail (h : Kept s) (hi : i < s.calls.length) (hf : Frame s s₁ i) (hw : World s₁) (hcalls : s₁.calls = s.calls)
    (hreinits : call.reinits ≤ 1) (honce : call.committing = true → call.processed + s₁.adrift.countP (·.calls i) ≤ 1)
    (hconfirmed : ∀ id, s₁.session = some id → id ∈ s₁.confirmed ∨
      ∃ other ∈ s.calls.set i { call with stage := .over }, other.stage.announces = some id) : Kept (s₁.fail i call) := by
  refine h.update hi { call with stage := .over } (by rw [Transport.fail, hcalls])
    ⟨hf.installed, hf.created, hf.held, fun j hne => ?_, hf.adrift⟩
    ⟨hw.past, hw.expired, hw.installed, hw.gone, hw.used, hw.sent, hw.discarded⟩
    ⟨trivial, ?_, hreinits, by simp [Stage.fresh], honce⟩ fun id hid => ?_
  · rw [← hf.lock j hne]
    simp only [Transport.fail]
    split
    · rename_i heq
      simp [heq, Ne.symm hne]
    · rfl
  · simp only [Transport.fail, Stage.initial, Stage.notifies]
    split <;> simp_all
  · rw [Transport.fail, hcalls]
    exact hconfirmed id hid

theorem Kept.initialized {left : Nat} {got : Option Nat} {answer : Reply} (h : Kept s) (hcall : s.calls[i]? = some call)
    (hstage : call.stage = .initializing lost left got) {requests : List Adrift}
    (hrequests : ∀ j, requests.countP (·.calls j) = 0)
    (ha : ({ s with adrift := s.adrift ++ requests } : Transport).initialized i call lost left got answer = some s') :
    Kept s' := by
  have hi := lt_of_call hcall
  have hholds := h.calls i call hcall
  have hlock : s.lock = some i := hholds.lock.mp (by rw [hstage]; rfl)
  obtain ⟨hlost, hnone, hgot⟩ : s.Fine (.initializing lost left got) := hstage ▸ hholds.fine
  have hf := Frame.drift s i fun j _ => hrequests j
  have hw := h.toWorld.drift requests
  have hcount : ({ s with adrift := s.adrift ++ requests } : Transport).adrift.countP (·.calls i) =
      s.adrift.countP (·.calls i) := by simp [hrequests]
  have hfailed : Kept (({ s with adrift := s.adrift ++ requests } : Transport).fail i call) := by
    refine h.fail hi hf hw rfl hholds.reinits (fun hcommitting => ?_) (by simp [hnone])
    have honce := hholds.once hcommitting
    omega
  cases answer with
  | response =>
    obtain ⟨id, hid, rfl⟩ := map_eq_some_iff.mp ha
    obtain ⟨hlt, holder⟩ := hgot id hid
    have hbelow : ∀ x ∈ s.installed, x ≠ id := by
      intro x hx heq
      have := (h.past id x (holder x hx)).1
      omega
    refine h.update hi { call with stage := .notifying lost id } rfl ⟨fun x hx => ⟨?_, fun _ => ?_⟩, hf.created, ?_, hf.lock, hf.adrift⟩
      ⟨hw.past, hw.expired, fun x hx => ?_, by simp, fun id' hid' => ?_, hw.sent, hw.discarded⟩
      ⟨⟨fun under hunder => ?_, fun t ht => (Option.some.inj ht).symm⟩, ?_, hholds.reinits, fun hfresh => ?_,
        fun hcommitting => ?_⟩ fun id' hid' => Or.inr ⟨{ call with stage := .notifying lost id }, ?_, ?_⟩
    · exact mem_append_left _ hx
    · exact fun heq => hbelow x hx (Option.some.inj heq).symm
    · rintro ⟨j, hne, hj⟩
      exact absurd (Option.some.inj (hlock.symm.trans hj)).symm hne
    · obtain hx | hx := mem_append.mp hx
      · exact h.installed x hx
      · exact mem_singleton.mp hx ▸ hlt
    · obtain rfl := Option.some.inj hid'
      refine ⟨mem_append_right _ (mem_singleton_self _), fun x hx => ?_⟩
      obtain hx | hx := mem_append.mp hx
      · exact Or.inr (holder x hx)
      · exact Or.inl (mem_singleton.mp hx)
    · obtain ⟨gone, rfl, hgone, -⟩ := hlost under hunder
      exact ⟨gone, rfl, mem_append_left _ hgone, fun heq => hbelow gone hgone (Option.some.inj heq).symm⟩
    · simp [Stage.initial, Stage.notifies, hlock]
    · exact hholds.fresh (by rw [hstage]; exact hfresh)
    · have honce := hholds.once hcommitting
      rw [hstage] at honce
      simp only [Stage.pending, countP_append, hrequests] at honce ⊢
      omega
    · exact mem_set hi _
    · exact hid'
  | failure drifts =>
    obtain rfl := Option.some.inj ha
    split
    · refine h.rest hi hf hw rfl ⟨⟨fun under hunder => hlost under hunder, hnone⟩, ?_, hholds.reinits, fun hfresh => ?_, fun hcommitting => ?_⟩
        (by simp [hnone])
      · simp [Stage.initial, hlock]
      · exact hholds.fresh (by rw [hstage]; exact hfresh)
      · have honce := hholds.once hcommitting
        rw [hstage] at honce
        simp only [Stage.pending, countP_append, hrequests] at honce ⊢
        omega
    · exact hfailed
  | notFound =>
    obtain rfl := Option.some.inj ha
    exact hfailed
  | refused drifts =>
    obtain rfl := Option.some.inj ha
    exact hfailed

theorem Kept.notified {id : Nat} {answer : Reply} (h : Kept s) (hcall : s.calls[i]? = some call)
    (hstage : call.stage = .notifying lost id) (hconfirmed : s.session = some id → id ∈ s.confirmed)
    (hplace : answer = .response ∨ answer = .notFound → s.session = some id) :
    Kept (({ s with adrift := s.adrift ++ answer.leaves (.notification id) } : Transport).notified i call lost answer) := by
  have hi := lt_of_call hcall
  have hholds := h.calls i call hcall
  have hlock : s.lock = some i := hholds.lock.mp (by rw [hstage]; rfl)
  obtain ⟨hlost, honly⟩ : s.Fine (.notifying lost id) := hstage ▸ hholds.fine
  have hrequests (j : Nat) : (answer.leaves (.notification id)).countP (·.calls j) = 0 := countP_leaves rfl answer
  have hf := Frame.drift s i fun j _ => hrequests j
  have hw := h.toWorld.drift (answer.leaves (.notification id))
  have hcounts : s.Counts i call lost :=
    hholds.counts (by rw [hstage]; rfl) fun hnone => by rw [hstage]; exact hnone
  have hfree : Frame s { s with adrift := s.adrift ++ answer.leaves (.notification id), lock := none } i := by
    refine ⟨hf.installed, hf.created, hf.held, fun j hne => ?_, hf.adrift⟩
    simp [hlock, Ne.symm hne]
  have hposted (hid : s.session = some id) : Kept (({ s with
      adrift := s.adrift ++ answer.leaves (.notification id), lock := none } : Transport).post i call lost s.session 3) := by
    refine h.post hi hfree ⟨hw.past, hw.expired, hw.installed, hw.gone, hw.used, hw.sent, hw.discarded⟩ rfl hid
      (hconfirmed hid) hlost (fun u hu => (h.used u hu).1) (by simp) ⟨hcounts.reinits, hcounts.fresh, fun hcommitting => ?_⟩ 3
    simp only [countP_append, hrequests]
    exact hcounts.once hcommitting
  have hfailed : Kept (({ s with adrift := s.adrift ++ answer.leaves (.notification id) } : Transport).fail i call) := by
    refine h.fail hi hf hw rfl hholds.reinits (fun hcommitting => ?_) fun id' hid' => Or.inl ?_
    · have honce := hcounts.once hcommitting
      simp only [countP_append, hrequests]
      omega
    · obtain rfl := honly id' hid'
      exact hconfirmed hid'
  cases answer with
  | response => exact hposted (hplace (Or.inl rfl))
  | notFound => exact hposted (hplace (Or.inr rfl))
  | failure drifts => exact hfailed
  | refused drifts => exact hfailed

theorem Kept.notFound {session under : Option Nat} {left : Nat} (h : Kept s) (hcall : s.calls[i]? = some call)
    (hstage : call.stage = .posting lost session under left false)
    (hgone : under.all (· ∈ s.expired) = true) (hsound : lost = none → session = under ∧ ¬s.Undelivered) :
    Kept (s.notFound i call lost session under) := by
  have hi := lt_of_call hcall
  have hholds := h.calls i call hcall
  have hlock : s.lock ≠ some i := by
    intro hlock
    have := hholds.lock.mpr hlock
    rw [hstage] at this
    cases this
  obtain ⟨hlost, hsession⟩ : s.Fine (.posting lost session under left false) := hstage ▸ hholds.fine
  have hcounts {lost' : Option (Option Nat)} (hnone : lost'.isNone = true → lost.isNone = true) : s.Counts i call lost' :=
    hholds.counts (by rw [hstage]; rfl) fun h' => by rw [hstage]; exact hnone h'
  unfold Transport.notFound
  split
  · rename_i stale
    obtain ⟨hunder, hund⟩ := hsound rfl
    subst hunder
    have hexpired : stale ∈ s.expired := by simpa using hgone
    have hstale : stale ∈ s.installed := hsession stale rfl
    have hzero : call.reinits = 0 := hholds.fresh (by rw [hstage]; rfl)
    have hcounts' : s.Counts i call (some (some stale)) := hcounts (by simp)
    unfold Transport.dropSession
    split
    · rename_i hid
      refine h.ensureSession hi ⟨fun _ hx => ⟨hx, fun _ => by simp⟩, fun _ ht => ⟨ht, rfl⟩, fun _ => ⟨Or.inl rfl, rfl⟩,
        fun _ _ => Iff.rfl, fun _ _ => rfl⟩ ⟨h.past, h.expired, h.installed, fun _ x hx => ?_, by simp, h.sent, fun d hd => ?_⟩
        rfl (by simp) (fun under hunder => ⟨stale, (Option.some.inj hunder).symm, hstale, by simp⟩) hlock
        ⟨hcounts'.reinits, hcounts'.fresh, hcounts'.once⟩ hzero
      · obtain rfl | hx := (h.used stale hid).2 x hx
        · exact hexpired
        · exact (h.past stale x hx).2
      · obtain hd | hd := mem_append.mp hd
        · exact h.discarded d hd
        · rw [mem_singleton.mp hd]
    · rename_i hid
      exact h.ensureSession hi (Frame.refl _ _) h.toWorld rfl (fun id hid => h.delivered hund hid)
        (fun under hunder => ⟨stale, (Option.some.inj hunder).symm, hstale, hid⟩) hlock hcounts' hzero
  · refine h.rest hi (Frame.refl _ _) h.toWorld rfl ⟨trivial, ?_, hholds.reinits, by simp [Stage.fresh], fun hcommitting => ?_⟩
      fun id hid => h.announced hcall (by rw [hstage]; rfl) hid
    · simp [Stage.initial, Stage.notifies, hlock]
    · have honce := (hcounts fun h => h).once hcommitting
      simp only [Stage.pending]
      omega

theorem Kept.answered {session under : Option Nat} {left : Nat} {processed : Bool} {answer : Reply} (h : Kept s)
    (hcall : s.calls[i]? = some call) (hstage : call.stage = .posting lost session under left processed)
    (hsound : (answer = .notFound → lost = none → session = under ∧ ¬s.Undelivered) ∧
      (call.committing = true → 1 < left → answer ≠ .failure true ∧ (answer = .failure false → processed = false)))
    {requests : List Adrift} (hleaves : requests = if processed then [] else answer.leaves (.toolsCall i under))
    (ha : ({ s with adrift := s.adrift ++ requests } : Transport).answered i call lost session under left processed answer =
      some s') : Kept s' := by
  have hi := lt_of_call hcall
  have hholds := h.calls i call hcall
  have hlock : s.lock ≠ some i := by
    intro hlock
    have := hholds.lock.mpr hlock
    rw [hstage] at this
    cases this
  obtain ⟨hlost, hsession⟩ : s.Fine (.posting lost session under left processed) := hstage ▸ hholds.fine
  have hrequests : ∀ j ≠ i, requests.countP (·.calls j) = 0 := by
    intro j hne
    rw [hleaves]
    split
    · rfl
    · exact countP_leaves (by simp [Adrift.calls, Ne.symm hne]) answer
  have hf := Frame.drift s i hrequests
  have hw := h.toWorld.drift requests
  have hover : Kept (({ s with adrift := s.adrift ++ requests } : Transport).put i { call with stage := .over }) := by
    refine h.rest hi hf hw rfl ⟨trivial, ?_, hholds.reinits, by simp [Stage.fresh], fun hcommitting => ?_⟩
      fun id hid => h.announced hcall (by rw [hstage]; rfl) hid
    · simp [Stage.initial, Stage.notifies, hlock]
    · have honce := hholds.once hcommitting
      have hle := countP_leaves_le (.toolsCall i under) i answer
      rw [hstage] at honce
      cases processed <;> simp only [hleaves, Stage.pending, countP_append, Bool.false_eq_true, if_true, if_false,
        countP_nil] at honce ⊢ <;> omega
  cases answer with
  | response =>
    simp only [Transport.answered] at ha
    split at ha
    · obtain rfl := Option.some.inj ha
      exact hover
    · cases ha
  | notFound =>
    simp only [Transport.answered] at ha
    split at ha
    · rename_i hguard
      obtain rfl := Option.some.inj ha
      obtain ⟨hfresh, hgone⟩ := Bool.and_eq_true_iff.mp hguard
      obtain rfl : processed = false := by simpa using hfresh
      simpa [hleaves, Reply.leaves] using h.notFound hcall hstage hgone (hsound.1 rfl)
    · cases ha
  | failure drifts =>
    obtain rfl := Option.some.inj ha
    split
    · rename_i hleft
      refine h.rest hi hf hw rfl ⟨⟨hlost, hsession⟩, ?_, hholds.reinits, fun hfresh => ?_, fun hcommitting => ?_⟩
        fun id hid => h.announced hcall (by rw [hstage]; rfl) hid
      · simp [Stage.initial, Stage.notifies, hlock]
      · exact hholds.fresh (by rw [hstage]; exact hfresh)
      · obtain ⟨hdrifts, hprocessed⟩ := hsound.2 hcommitting hleft
        obtain rfl : drifts = false := by simpa using hdrifts
        obtain rfl := hprocessed rfl
        have honce := hholds.once hcommitting
        rw [hstage] at honce
        simpa [hleaves, Stage.pending, Reply.leaves] using honce
    · exact hover
  | refused drifts =>
    obtain rfl := Option.some.inj ha
    exact hover

theorem Kept.reply {answer : Reply} (h : Kept s) (hcall : s.calls[i]? = some call) (hsound : s.SoundReply call answer)
    (ha : s.reply i call answer = some s') : Kept s' := by
  unfold Transport.reply at ha
  unfold SoundReply at hsound
  cases hstage : call.stage with
  | initializing lost left got =>
    rw [hstage] at ha
    refine h.initialized hcall hstage (fun j => ?_) ha
    split
    · exact countP_leaves rfl answer
    · rfl
  | notifying lost id =>
    rw [hstage] at ha hsound
    obtain rfl := Option.some.inj ha
    exact h.notified hcall hstage hsound.1 hsound.2
  | posting lost session under left processed =>
    rw [hstage] at ha hsound
    exact h.answered hcall hstage hsound rfl ha
  | waiting lost | resting lost left | backoff lost session left | «over» =>
    rw [hstage] at ha
    cases ha

/-! Requests that reach the server late. -/

theorem countP_eraseIdx {k : Nat} {request : Adrift} (hk : s.adrift[k]? = some request) (j : Nat) :
    (if request.calls j then 1 else 0) + (s.adrift.eraseIdx k).countP (·.calls j) = s.adrift.countP (·.calls j) := by
  obtain ⟨hlt, hget⟩ := List.getElem?_eq_some_iff.mp hk
  have hperm := getElem_cons_eraseIdx_perm hlt
  rw [hget] at hperm
  rw [← hperm.countP_eq, countP_cons]
  omega

theorem Kept.arrive {k : Nat} {request : Adrift} (h : Kept s) (hk : s.adrift[k]? = some request) :
    Kept (({ s with adrift := s.adrift.eraseIdx k } : Transport).arrive request) := by
  have hcount := countP_eraseIdx hk
  have hsame (hother : ∀ j, request.calls j = false) (j : Nat) :
      (s.adrift.eraseIdx k).countP (·.calls j) = s.adrift.countP (·.calls j) := by
    have := hcount j
    rw [hother j] at this
    simpa using this
  have hnone (hother : ∀ j, request.calls j = false) (j : Nat) (hj : s.calls.length ≤ j) :
      (s.adrift.eraseIdx k).countP (·.calls j) = 0 := by
    rw [hsame hother j]
    exact h.adrift j hj
  cases request with
  | handshake =>
    have hother : ∀ j, Adrift.handshake.calls j = false := fun _ => rfl
    have hf := Frame.create s s.calls.length
    have hw := h.toWorld.create
    have hframe : Frame s { s with adrift := s.adrift.eraseIdx k, created := s.created ++ [s.expired] } s.calls.length :=
      ⟨hf.installed, hf.created, hf.held, hf.lock, fun j _ => hsame hother j⟩
    exact h.outside rfl hframe ⟨hw.past, hw.expired, hw.installed, hw.gone, hw.used, hw.sent, hw.discarded⟩ rfl
      (hnone hother _ (Nat.le_refl _)) h.confirmed fun j hj => hnone hother j (Nat.le_of_lt hj)
  | notification id =>
    have hother : ∀ j, (Adrift.notification id).calls j = false := fun _ => rfl
    have hframe : Frame s { s with
        adrift := s.adrift.eraseIdx k, confirmed := if id ∈ s.expired then s.confirmed else id :: s.confirmed } s.calls.length :=
      ⟨fun _ hx => ⟨hx, fun hne => hne⟩, fun _ ht => ⟨ht, rfl⟩, fun _ => ⟨Or.inr rfl, rfl⟩, fun _ _ => Iff.rfl,
        fun j _ => hsame hother j⟩
    refine h.outside rfl hframe ⟨h.past, h.expired, h.installed, h.gone, h.used, h.sent, h.discarded⟩ rfl
      (hnone hother _ (Nat.le_refl _)) (fun id' hid' => (h.confirmed id' hid').imp_left fun hconfirmed => ?_)
      fun j hj => hnone hother j (Nat.le_of_lt hj)
    simp only [Transport.arrive]
    split
    · exact hconfirmed
    · exact mem_cons_of_mem id hconfirmed
  | toolsCall i under =>
    have hself : (Adrift.toolsCall i under).calls i = true := by simp [Adrift.calls]
    have hother (j : Nat) (hne : j ≠ i) : (Adrift.toolsCall i under).calls j = false := by
      simp [Adrift.calls, Ne.symm hne]
    have hi : i < s.calls.length := by
      by_contra hge
      have hzero := h.adrift i (Nat.le_of_not_lt hge)
      have := hcount i
      rw [hself, if_pos rfl] at this
      omega
    have hcall : s.calls[i]? = some s.calls[i] := List.getElem?_eq_getElem hi
    have hholds := h.calls i _ hcall
    have hdrop : Frame s { s with adrift := s.adrift.eraseIdx k } i := by
      refine ⟨fun _ hx => ⟨hx, fun hne => hne⟩, fun _ ht => ⟨ht, rfl⟩, fun _ => ⟨Or.inr rfl, rfl⟩, fun _ _ => Iff.rfl,
        fun j hne => ?_⟩
      have := hcount j
      rw [hother j hne] at this
      simpa using this
    have hw : World { s with adrift := s.adrift.eraseIdx k } :=
      ⟨h.past, h.expired, h.installed, h.gone, h.used, h.sent, h.discarded⟩
    have hone := hcount i
    rw [hself, if_pos rfl] at hone
    have hset (count : Nat) (hle : count ≤ s.calls[i].processed + 1) :
        Kept (({ s with adrift := s.adrift.eraseIdx k } : Transport).put i { s.calls[i] with processed := count }) := by
      refine h.rest hi hdrop hw rfl ⟨hholds.fine, hholds.lock, hholds.reinits, hholds.fresh, fun hcommitting => ?_⟩
        fun id hid => (h.confirmed id hid).imp_right fun ⟨call, hmem, hannounces⟩ => ?_
      · have honce := hholds.once hcommitting
        simp only
        omega
      · obtain ⟨j, hj⟩ := List.getElem?_of_mem hmem
        by_cases hne : i = j
        · subst hne
          obtain rfl := Option.some.inj (hcall.symm.trans hj)
          exact ⟨_, mem_set hi _, hannounces⟩
        · exact ⟨call, mem_of_getElem? (by rw [List.getElem?_set_ne hne]; exact hj), hannounces⟩
    unfold Transport.arrive
    simp only
    split
    · have hkept := hset s.calls[i].processed (Nat.le_succ _)
      have heq : s.calls.set i { s.calls[i] with processed := s.calls[i].processed } = s.calls := set_getElem_self hi
      rw [Transport.put, heq] at hkept
      exact hkept
    · rw [modify_eq_set_getElem?, hcall]
      exact hset (s.calls[i].processed + 1) (Nat.le_refl _)

theorem Kept.expire {id : Nat} (h : Kept s) (hid : id < s.created.length) : Kept { s with expired := s.expired ++ [id] } := by
  refine h.outside rfl ⟨fun _ hx => ⟨hx, fun hne => hne⟩, fun _ ht => ⟨ht, rfl⟩, fun _ => ⟨Or.inr rfl, rfl⟩,
    fun _ _ => Iff.rfl, fun _ _ => rfl⟩ ⟨fun t x hx => ?_, fun x hx => ?_, h.installed, fun hnone x hx => ?_, h.used, h.sent,
      h.discarded⟩ rfl (h.adrift _ (Nat.le_refl _)) h.confirmed fun j hj => h.adrift j (Nat.le_of_lt hj)
  · exact ⟨(h.past t x hx).1, mem_append_left _ (h.past t x hx).2⟩
  · obtain hx | hx := mem_append.mp hx
    · exact h.expired x hx
    · exact mem_singleton.mp hx ▸ hid
  · exact mem_append_left _ (h.gone hnone x hx)

theorem Kept.step {a : McpStep} (h : Kept s) (hsound : Sound s a) (ha : s.step a = some s') : Kept s' := by
  cases a with
  | start committing =>
    obtain rfl := Option.some.inj ha
    exact h.start hsound committing
  | enter i =>
    obtain ⟨call, hcall, ha⟩ := bind_eq_some_iff.mp ha
    split at ha
    · rename_i lost hstage
      split at ha
      · rename_i hfree
        obtain rfl := Option.some.inj ha
        exact h.enter hcall hstage hfree
      · cases ha
    · cases ha
  | process i =>
    obtain ⟨call, hcall, ha⟩ := bind_eq_some_iff.mp ha
    exact h.process hcall ha
  | reply i answer =>
    obtain ⟨call, hcall, ha⟩ := bind_eq_some_iff.mp ha
    exact h.reply hcall (hsound call hcall) ha
  | retry i =>
    obtain ⟨call, hcall, ha⟩ := bind_eq_some_iff.mp ha
    exact h.retry hcall (hsound call hcall) ha
  | arrive k =>
    obtain ⟨request, hk, rfl⟩ := map_eq_some_iff.mp ha
    exact h.arrive hk
  | expire id =>
    simp only [Transport.step] at ha
    split at ha
    · rename_i hid
      obtain rfl := Option.some.inj ha
      exact h.expire hid.1
    · cases ha

end Transport

/-! Every call ends: its own steps use up a rank, and there is always one to take. -/

/-- The steps of its own that are left at most, before a re-initialisation and after it. -/
def Stage.rank : Stage → Nat
  | .waiting lost => (if lost.isNone then 17 else 0) + 16
  | .resting lost left => (if lost.isNone then 17 else 0) + (10 + 2 * left)
  | .initializing lost left _ => (if lost.isNone then 17 else 0) + (9 + 2 * left)
  | .notifying lost _ => (if lost.isNone then 17 else 0) + 8
  | .backoff lost _ left => (if lost.isNone then 17 else 0) + (2 + 2 * left)
  | .posting lost _ _ left _ => (if lost.isNone then 17 else 0) + (1 + 2 * left)
  | .over => 0

def McpStep.own : McpStep → Bool
  | .enter _ | .reply .. | .retry _ => true
  | _ => false

namespace Transport

def work (s : Transport) : Nat := (s.calls.map fun call => call.stage.rank).sum

variable {s s' : Transport} {i : Nat} {call call' : ToolCall} {lost : Option (Option Nat)}

theorem work_set (hcall : s.calls[i]? = some call) (hcalls : s'.calls = s.calls.set i call')
    (hrank : call'.stage.rank < call.stage.rank) : s'.work < s.work := by
  obtain ⟨hi, rfl⟩ := List.getElem?_eq_some_iff.mp hcall
  have hperm := (set_perm_cons_eraseIdx hi call').map fun call => call.stage.rank
  have hperm' := (getElem_cons_eraseIdx_perm hi).map fun call => call.stage.rank
  rw [work, work, hcalls, hperm.sum_nat, ← hperm'.sum_nat]
  simp only [map_cons, sum_cons]
  omega

theorem ensureSession_calls (s : Transport) (i : Nat) (call : ToolCall) (under : Option Nat) :
    ∃ call', (s.ensureSession i call (some under)).calls = s.calls.set i call' ∧ call'.stage.rank ≤ 16 := by
  unfold ensureSession
  split
  · exact ⟨_, rfl, by simp [Stage.rank]⟩
  · exact ⟨_, rfl, by simp [Stage.rank]⟩

theorem notFound_calls (s : Transport) (i : Nat) (call : ToolCall) (lost : Option (Option Nat)) (session under : Option Nat)
    (left : Nat) (processed : Bool) : ∃ call', (s.notFound i call lost session under).calls = s.calls.set i call' ∧
      call'.stage.rank < (Stage.posting lost session under left processed).rank := by
  unfold notFound
  split
  · rename_i stale
    obtain ⟨call', hcalls, hrank⟩ := ensureSession_calls (s.dropSession under stale) i call under
    refine ⟨call', ?_, Nat.lt_of_le_of_lt hrank (by simp only [Stage.rank, isNone_none, if_true]; omega)⟩
    rw [hcalls, dropSession]
    split <;> rfl
  · exact ⟨_, rfl, by simp only [Stage.rank]; omega⟩

theorem answered_calls {s s' : Transport} {session under : Option Nat} {left : Nat} {processed : Bool} {answer : Reply}
    (ha : s.answered i call lost session under left processed answer = some s') : ∃ call',
      s'.calls = s.calls.set i call' ∧ call'.stage.rank < (Stage.posting lost session under left processed).rank := by
  cases answer with
  | response =>
    simp only [answered] at ha
    split at ha
    · obtain rfl := Option.some.inj ha
      exact ⟨_, rfl, by simp only [Stage.rank]; omega⟩
    · cases ha
  | notFound =>
    simp only [answered] at ha
    split at ha
    · obtain rfl := Option.some.inj ha
      exact notFound_calls s i call lost session under left processed
    · cases ha
  | failure drifts =>
    obtain rfl := Option.some.inj ha
    refine ⟨_, rfl, ?_⟩
    simp only
    split <;> simp only [Stage.rank] <;> omega
  | refused drifts =>
    obtain rfl := Option.some.inj ha
    exact ⟨_, rfl, by simp only [Stage.rank]; omega⟩

theorem initialized_calls {s s' : Transport} {left : Nat} {got : Option Nat} {answer : Reply}
    (ha : s.initialized i call lost left got answer = some s') : ∃ call',
      s'.calls = s.calls.set i call' ∧ call'.stage.rank < (Stage.initializing lost left got).rank := by
  cases answer with
  | response =>
    obtain ⟨id, -, rfl⟩ := map_eq_some_iff.mp ha
    exact ⟨_, rfl, by simp only [Stage.rank]; omega⟩
  | failure drifts =>
    obtain rfl := Option.some.inj ha
    split
    · exact ⟨_, rfl, by simp only [Stage.rank]; omega⟩
    · exact ⟨_, rfl, by simp only [Stage.rank]; omega⟩
  | notFound | refused drifts =>
    obtain rfl := Option.some.inj ha
    exact ⟨_, rfl, by simp only [Stage.rank]; omega⟩

theorem notified_calls (s : Transport) (i : Nat) (call : ToolCall) (lost : Option (Option Nat)) (id : Nat) (answer : Reply) :
    ∃ call', (s.notified i call lost answer).calls = s.calls.set i call' ∧
      call'.stage.rank < (Stage.notifying lost id).rank := by
  cases answer with
  | response | notFound => exact ⟨_, rfl, by simp only [Stage.rank]; omega⟩
  | failure drifts | refused drifts => exact ⟨_, rfl, by simp only [Stage.rank]; omega⟩

theorem work_step {a : McpStep} (hown : a.own = true) (ha : s.step a = some s') : s'.work < s.work := by
  cases a with
  | start committing | process i | arrive k | expire id => cases hown
  | enter i =>
    obtain ⟨call, hcall, ha⟩ := bind_eq_some_iff.mp ha
    split at ha
    · rename_i lost hstage
      split at ha
      · obtain rfl := Option.some.inj ha
        unfold Transport.enter
        split <;>
        · refine work_set hcall rfl ?_
          rw [hstage]
          simp only [Stage.rank]
          omega
      · cases ha
    · cases ha
  | reply i answer =>
    obtain ⟨call, hcall, ha⟩ := bind_eq_some_iff.mp ha
    unfold Transport.reply at ha
    split at ha
    · rename_i lost left got hstage
      obtain ⟨call', hcalls, hrank⟩ := initialized_calls ha
      exact work_set hcall hcalls (hstage ▸ hrank)
    · rename_i lost id hstage
      obtain rfl := Option.some.inj ha
      obtain ⟨call', hcalls, hrank⟩ := notified_calls _ i call lost id answer
      exact work_set hcall hcalls (hstage ▸ hrank)
    · rename_i lost session under left processed hstage
      obtain ⟨call', hcalls, hrank⟩ := answered_calls ha
      exact work_set hcall hcalls (hstage ▸ hrank)
    · cases ha
  | retry i =>
    obtain ⟨call, hcall, ha⟩ := bind_eq_some_iff.mp ha
    unfold Transport.retry at ha
    split at ha
    · rename_i lost left hstage
      obtain rfl := Option.some.inj ha
      refine work_set hcall rfl ?_
      rw [hstage]
      simp only [Stage.rank]
      omega
    · rename_i lost session left hstage
      obtain rfl := Option.some.inj ha
      refine work_set hcall rfl ?_
      rw [hstage]
      simp only [Stage.rank]
      omega
    · cases ha

/-- Every suspended call may be answered, or wakes up. -/
theorem exists_own (hcall : s.calls[i]? = some call) (hopen : call.stage ≠ .over)
    (hbusy : ∀ lost, call.stage ≠ .waiting lost) : ∃ a, a.own = true ∧ (s.step a).isSome := by
  cases hstage : call.stage with
  | waiting lost => exact absurd hstage (hbusy lost)
  | «over» => exact absurd hstage hopen
  | initializing lost left got | notifying lost id | posting lost session under left processed =>
    refine ⟨.reply i (.refused false), rfl, ?_⟩
    simp only [step, hcall, bind_some, Transport.reply, hstage]
    rfl
  | resting lost left | backoff lost session left =>
    refine ⟨.retry i, rfl, ?_⟩
    simp only [step, hcall, bind_some, Transport.retry, hstage]
    rfl

/-- A call that has not ended can go on, or waits for one that can. -/
theorem Kept.exists_step (h : Kept s) (hcall : call ∈ s.calls) (hopen : call.stage ≠ .over) :
    ∃ a, a.own = true ∧ (s.step a).isSome := by
  obtain ⟨i, hi⟩ := List.getElem?_of_mem hcall
  by_cases hwaiting : ∃ lost, call.stage = .waiting lost
  · obtain ⟨lost, hstage⟩ := hwaiting
    cases hlock : s.lock with
    | none =>
      refine ⟨.enter i, rfl, ?_⟩
      rw [Transport.step, hi]
      simp [hstage, hlock]
    | some j =>
      have hlt := h.holder j hlock
      have hj : s.calls[j]? = some s.calls[j] := List.getElem?_eq_getElem hlt
      have hinside := (h.calls j _ hj).lock.mpr hlock
      refine exists_own hj (fun hover => ?_) fun lost hother => ?_
      · rw [hover] at hinside
        cases hinside
      · rw [hother] at hinside
        cases hinside
  · exact exists_own hi hopen fun lost hstage => hwaiting ⟨lost, hstage⟩

end Transport
end SelericSwarm.Mcp
