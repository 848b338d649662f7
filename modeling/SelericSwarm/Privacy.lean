import Mathlib.Data.List.Infix
import SelericSwarm.EventStream
import SelericSwarm.Missions

/-! What is delivered of an event: the visibility check, the allow-list of the payload
and the redaction of what is left. -/
namespace SelericSwarm
open Keyed

/-- What a mapping in a payload is keyed by. -/
inductive PayloadKey (κ : Type) where
  | str (s : String)
  | other (k : κ)
  deriving DecidableEq, Repr

/-- A payload as its sender has built it; a leaf is neither text nor a container. -/
inductive PayloadValue (κ α : Type) where
  | text (s : String)
  | leaf (a : α)
  | list (items : List (PayloadValue κ α))
  | tuple (items : List (PayloadValue κ α))
  | mapping (entries : List (PayloadKey κ × PayloadValue κ α))

/-- `ActivityEvent` with all its fields. -/
structure PrivateEvent (κ α : Type) where
  id : String
  threadId : String
  workspaceId : String
  runId : Option String := none
  ownerUserId : Option String := none
  actorUserId : Option String := none
  sequence : Nat := 0
  threadSequence : Nat := 0
  eventType : String
  actorType : Option String := none
  actorId : Option String := none
  title : Option String := none
  summary : Option String := none
  parentEventId : Option String := none
  visibility : EventVisibility := .user
  evidenceIds : List String := []
  payload : Dict String (PayloadValue κ α) := .empty
  metadata : Dict String (PayloadValue κ α) := .empty
  startedAt : Option Moment := none
  completedAt : Option Moment := none
  durationMs : Option Nat := none
  createdAt : Moment

/-- The event as the streams and their visibility check know it. -/
def PrivateEvent.toActivity {κ α : Type} (event : PrivateEvent κ α) : ActivityEvent where
  id := event.id
  threadId := event.threadId
  workspaceId := event.workspaceId
  runId := event.runId
  ownerUserId := event.ownerUserId
  actorUserId := event.actorUserId
  sequence := event.sequence
  threadSequence := event.threadSequence
  eventType := event.eventType
  summary := event.summary
  visibility := event.visibility
  startedAt := event.startedAt
  completedAt := event.completedAt

/-- `_TEXT_PATTERNS`. -/
inductive TextPattern where
  | bearer | credential | secretKey | email | phone
  deriving DecidableEq, Repr

def textPatterns : List TextPattern := [.bearer, .credential, .secretKey, .email, .phone]

def redacted : String := "[REDACTED]"

def sensitiveKeys : List String :=
  ["api_key", "apikey", "authorization", "credential", "password", "secret", "token"]

def publicEventFields : List String :=
  ["agent", "agent_id", "artifact_id", "artifact_type", "claim_id", "confidence", "decision", "delta",
    "description", "duration_ms", "error", "error_code", "evidence_id", "evidence_ids", "family",
    "from_agent", "intent", "mapping_version", "message", "message_id", "mission_id", "name", "note",
    "reason_code", "route", "source_kind", "specialist", "status", "summary", "task_id", "title",
    "to_agent", "tool", "tool_name", "warning", "wave", "workflow_name", "workflow_version"]

/-- Python's text functions on payloads: `str.lower`, `str` of a key that is no string,
and the substitution of a pattern. -/
structure Redaction (κ : Type) where
  lower : String → String
  lower_empty : lower "" = ""
  str : κ → String
  sub : TextPattern → String → String

namespace Redaction
variable {κ α : Type} (r : Redaction κ)

def keyText : PayloadKey κ → String
  | .str s => s
  | .other k => r.str k

def isSensitiveKey (key : PayloadKey κ) : Bool :=
  sensitiveKeys.any fun fragment => fragment.toList <:+: (r.lower (r.keyText key)).toList

def redactText (value : String) : String := textPatterns.foldl (fun text pattern => r.sub pattern text) value

mutual

/-- `redact_data`; the items of a list or tuple have the key `""`. -/
def redactData (key : PayloadKey κ) (value : PayloadValue κ α) : PayloadValue κ α :=
  if r.isSensitiveKey key then .text redacted
  else
    match value with
    | .text s => .text (r.redactText s)
    | .leaf a => .leaf a
    | .list items => .list (redactItems items)
    | .tuple items => .tuple (redactItems items)
    | .mapping entries => .mapping (redactEntries entries)

def redactItems : List (PayloadValue κ α) → List (PayloadValue κ α)
  | [] => []
  | item :: items => redactData (.str "") item :: redactItems items

def redactEntries : List (PayloadKey κ × PayloadValue κ α) → List (PayloadKey κ × PayloadValue κ α)
  | [] => []
  | (key, item) :: entries => (key, redactData key item) :: redactEntries entries

end

/-- `event_for_principal`; `redact_data` of the public payload goes into each entry. -/
def eventForPrincipal (event : PrivateEvent κ α) (principal : Principal) : Option (PrivateEvent κ α) :=
  if !canViewEvent r.lower event.toActivity principal then none
  else
    let publicPayload := event.payload.filter fun entry => entry.1 ∈ publicEventFields
    some { event with
      title := (truthy event.title).map r.redactText
      summary := (truthy event.summary).map r.redactText
      payload := publicPayload.mapRows (fun entry => (entry.1, r.redactData (.str entry.1) entry.2)) fun _ => rfl
      metadata := .empty }

/-! Two values compared: containers of one shape with the same keys, leaves alike, and
a comparison of its own for texts and for what is stored under sensitive keys. -/

section Compared
variable (texts : String → String → Prop) (hidden : PayloadValue κ α → PayloadValue κ α → Prop)

mutual

def Compared : PayloadValue κ α → PayloadValue κ α → Prop
  | .text s, .text t => texts s t
  | .leaf a, .leaf b => a = b
  | .list xs, .list ys | .tuple xs, .tuple ys => ComparedItems xs ys
  | .mapping es, .mapping fs => ComparedEntries es fs
  | _, _ => False

def ComparedItems : List (PayloadValue κ α) → List (PayloadValue κ α) → Prop
  | [], [] => True
  | x :: xs, y :: ys => Compared x y ∧ ComparedItems xs ys
  | _, _ => False

def ComparedEntries : List (PayloadKey κ × PayloadValue κ α) → List (PayloadKey κ × PayloadValue κ α) → Prop
  | [], [] => True
  | (k, v) :: es, (l, w) :: fs =>
    k = l ∧ (if r.isSensitiveKey k then hidden v w else Compared v w) ∧ ComparedEntries es fs
  | _, _ => False

end

end Compared

theorem isSensitiveKey_empty : r.isSensitiveKey (.str "") = false := by
  simp [isSensitiveKey, keyText, r.lower_empty, sensitiveKeys]

theorem redactData_of_sensitive {key : PayloadKey κ} (h : r.isSensitiveKey key = true)
    (v : PayloadValue κ α) : r.redactData key v = .text redacted := by
  unfold redactData
  exact if_pos h

/-! What two values share, their redactions share. -/

/-- The same but for what is stored under sensitive keys. -/
abbrev Alike (v w : PayloadValue κ α) : Prop := r.Compared (· = ·) (fun _ _ => True) v w

mutual

theorem redactData_of_alike (key : PayloadKey κ) (v w : PayloadValue κ α) (h : r.Alike v w) :
    r.redactData key v = r.redactData key w := by
  unfold redactData
  split
  · rfl
  · cases v with
    | text s =>
      cases w with
      | text t => rw [show s = t from h]
      | leaf | list | tuple | mapping => exact absurd h (by simp [Compared])
    | leaf a =>
      cases w with
      | leaf b => rw [show a = b from h]
      | text | list | tuple | mapping => exact absurd h (by simp [Compared])
    | list xs =>
      cases w with
      | list ys => exact congrArg PayloadValue.list (redactItems_of_alike xs ys h)
      | text | leaf | tuple | mapping => exact absurd h (by simp [Compared])
    | tuple xs =>
      cases w with
      | tuple ys => exact congrArg PayloadValue.tuple (redactItems_of_alike xs ys h)
      | text | leaf | list | mapping => exact absurd h (by simp [Compared])
    | mapping es =>
      cases w with
      | mapping fs => exact congrArg PayloadValue.mapping (redactEntries_of_alike es fs h)
      | text | leaf | list | tuple => exact absurd h (by simp [Compared])

theorem redactItems_of_alike (xs ys : List (PayloadValue κ α))
    (h : r.ComparedItems (· = ·) (fun _ _ => True) xs ys) : r.redactItems xs = r.redactItems ys := by
  cases xs with
  | nil =>
    cases ys with
    | nil => rfl
    | cons y ys => exact absurd h (by simp [ComparedItems])
  | cons x xs =>
    cases ys with
    | nil => exact absurd h (by simp [ComparedItems])
    | cons y ys =>
      obtain ⟨hx, hxs⟩ : r.Alike x y ∧ r.ComparedItems (· = ·) (fun _ _ => True) xs ys := h
      rw [redactItems, redactItems, redactData_of_alike _ x y hx, redactItems_of_alike xs ys hxs]

theorem redactEntries_of_alike (es fs : List (PayloadKey κ × PayloadValue κ α))
    (h : r.ComparedEntries (· = ·) (fun _ _ => True) es fs) : r.redactEntries es = r.redactEntries fs := by
  cases es with
  | nil =>
    cases fs with
    | nil => rfl
    | cons f fs => exact absurd h (by simp [ComparedEntries])
  | cons e es =>
    cases fs with
    | nil => exact absurd h (by simp [ComparedEntries])
    | cons f fs =>
      obtain ⟨k, v⟩ := e
      obtain ⟨l, w⟩ := f
      obtain ⟨rfl, hv, hes⟩ : k = l ∧ (if r.isSensitiveKey k then True else r.Alike v w) ∧
        r.ComparedEntries (· = ·) (fun _ _ => True) es fs := h
      have hsame : r.redactData k v = r.redactData k w := by
        by_cases hk : r.isSensitiveKey k = true
        · rw [r.redactData_of_sensitive hk, r.redactData_of_sensitive hk]
        · rw [if_neg hk] at hv
          exact redactData_of_alike k v w hv
      rw [redactEntries, redactEntries, hsame, redactEntries_of_alike es fs hes]

end

/-! A redaction keeps the shape. -/

/-- The texts redacted, and one text in place of what is stored under sensitive keys. -/
abbrev Masks (v w : PayloadValue κ α) : Prop :=
  r.Compared (fun s t => t = r.redactText s) (fun _ w => w = .text redacted) v w

mutual

theorem masks_redactData (key : PayloadKey κ) (hkey : r.isSensitiveKey key = false) (v : PayloadValue κ α) :
    r.Masks v (r.redactData key v) := by
  unfold redactData
  rw [hkey]
  cases v with
  | text s => exact rfl
  | leaf a => exact rfl
  | list items => exact masks_redactItems items
  | tuple items => exact masks_redactItems items
  | mapping entries => exact masks_redactEntries entries

theorem masks_redactItems (items : List (PayloadValue κ α)) :
    r.ComparedItems (fun s t => t = r.redactText s) (fun _ w => w = .text redacted) items
      (r.redactItems items) := by
  cases items with
  | nil => exact trivial
  | cons item items =>
    exact ⟨masks_redactData (.str "") r.isSensitiveKey_empty item, masks_redactItems items⟩

theorem masks_redactEntries (entries : List (PayloadKey κ × PayloadValue κ α)) :
    r.ComparedEntries (fun s t => t = r.redactText s) (fun _ w => w = .text redacted) entries
      (r.redactEntries entries) := by
  cases entries with
  | nil => exact trivial
  | cons entry entries =>
    obtain ⟨k, v⟩ := entry
    refine ⟨rfl, ?_, masks_redactEntries entries⟩
    by_cases hk : r.isSensitiveKey k = true
    · rw [if_pos hk]
      exact r.redactData_of_sensitive hk v
    · rw [if_neg hk]
      exact masks_redactData k (by simpa using hk) v

end

/-! Events. -/

def entriesOf (payload : Dict String (PayloadValue κ α)) : List (PayloadKey κ × PayloadValue κ α) :=
  payload.rows.map fun entry => (.str entry.1, entry.2)

def publicEntries (event : PrivateEvent κ α) : List (PayloadKey κ × PayloadValue κ α) :=
  entriesOf (event.payload.filter fun entry => entry.1 ∈ publicEventFields)

def bare (event : PrivateEvent κ α) : PrivateEvent κ α := { event with payload := .empty, metadata := .empty }

/-- Two events that differ only in their metadata, in payload entries that are not public, and
in what the public ones store under sensitive keys. -/
structure AlikeEvents (e e' : PrivateEvent κ α) : Prop where
  others : bare e = bare e'
  payload : r.ComparedEntries (· = ·) (fun _ _ => True) (publicEntries e) (publicEntries e')

/-- The principal is not authenticated, is outside the workspace, is below the visibility, or
is neither the owner of a user's event nor an administrator. -/
def Denied (e : PrivateEvent κ α) (principal : Principal) : Prop :=
  principal.authenticated = false ∨
    principal.workspaceId ≠ e.workspaceId ∧ principal.isInternal r.lower = false ∨
    e.visibility = .internal ∧ principal.isInternal r.lower = false ∨
    e.visibility = .admin ∧ principal.isAdmin r.lower = false ∨
    e.visibility = .user ∧ ∃ owner, e.ownerUserId = some owner ∧ principal.userId ≠ owner ∧
      principal.isAdmin r.lower = false

theorem entriesOf_injective {p q : Dict String (PayloadValue κ α)} (h : entriesOf p = entriesOf q) : p = q := by
  apply Table.ext
  refine List.map_injective_iff.mpr ?_ h
  rintro ⟨k, v⟩ ⟨l, w⟩ he
  simpa using he

theorem redactEntries_eq_map (entries : List (PayloadKey κ × PayloadValue κ α)) :
    r.redactEntries entries = entries.map fun entry => (entry.1, r.redactData entry.1 entry.2) := by
  induction entries with
  | nil => rfl
  | cons entry entries ih => rw [redactEntries, ih, List.map_cons]

theorem eventForPrincipal_some {e d : PrivateEvent κ α} {principal : Principal}
    (h : r.eventForPrincipal e principal = some d) :
    canViewEvent r.lower e.toActivity principal = true ∧ entriesOf d.payload = r.redactEntries (publicEntries e) ∧
      d = { e with
        title := (truthy e.title).map r.redactText, summary := (truthy e.summary).map r.redactText
        payload := d.payload, metadata := .empty } := by
  unfold eventForPrincipal at h
  split at h
  · cases h
  next hview =>
    obtain rfl := Option.some.inj h
    refine ⟨by simpa using hview, ?_, rfl⟩
    simp [entriesOf, publicEntries, redactEntries_eq_map, Table.mapRows, Function.comp_def]

theorem eventForPrincipal_of_alike {e e' : PrivateEvent κ α} (h : r.AlikeEvents e e') (principal : Principal) :
    r.eventForPrincipal e principal = r.eventForPrincipal e' principal := by
  have hview : canViewEvent r.lower e.toActivity principal = canViewEvent r.lower e'.toActivity principal :=
    congrArg (fun event => canViewEvent r.lower event.toActivity principal) h.others
  have hentries := r.redactEntries_of_alike _ _ h.payload
  cases hd : r.eventForPrincipal e principal with
  | none =>
    cases hd' : r.eventForPrincipal e' principal with
    | none => rfl
    | some d' =>
      obtain ⟨hv, -, -⟩ := r.eventForPrincipal_some hd'
      simp [eventForPrincipal, hview, hv] at hd
  | some d =>
    obtain ⟨hv, hp, he⟩ := r.eventForPrincipal_some hd
    cases hd' : r.eventForPrincipal e' principal with
    | none => simp [eventForPrincipal, ← hview, hv] at hd'
    | some d' =>
      obtain ⟨-, hp', he'⟩ := r.eventForPrincipal_some hd'
      have hpayload : d.payload = d'.payload := entriesOf_injective (by rw [hp, hp', hentries])
      rw [he, he', hpayload]
      have hcongr := congrArg (fun event : PrivateEvent κ α => ({ event with
        title := (truthy event.title).map r.redactText, summary := (truthy event.summary).map r.redactText
        payload := d'.payload } : PrivateEvent κ α)) h.others
      exact congrArg some hcongr

theorem eventForPrincipal_eq_none_iff (e : PrivateEvent κ α) (principal : Principal) :
    r.eventForPrincipal e principal = none ↔ r.Denied e principal := by
  have hnone : r.eventForPrincipal e principal = none ↔
      canViewEvent r.lower e.toActivity principal = false := by
    unfold eventForPrincipal
    split
    next h => simpa using h
    next h => simpa using h
  rw [hnone, Denied]
  cases hauth : principal.authenticated with
  | false => simp [canViewEvent, hauth]
  | true =>
    by_cases haccess : principal.canAccessWorkspace r.lower e.workspaceId = true
    · have hinside : ¬ (principal.workspaceId ≠ e.workspaceId ∧ principal.isInternal r.lower = false) := by
        rintro ⟨hne, hinternal⟩
        simp [Principal.canAccessWorkspace, hne, hinternal] at haccess
      rw [canViewEvent]
      cases hv : e.visibility with
      | internal => simp [hauth, PrivateEvent.toActivity, haccess, hv, hinside]
      | admin => simp [hauth, PrivateEvent.toActivity, haccess, hv, hinside]
      | user =>
        have hview : canViewEvent r.lower e.toActivity principal =
            e.ownerUserId.all fun owner => principal.owns r.lower e.workspaceId owner := by
          simp [canViewEvent, hauth, PrivateEvent.toActivity, haccess, hv]
        rw [← canViewEvent, hview]
        cases ho : e.ownerUserId with
        | none => simp [hinside]
        | some owner => simp [hinside, Principal.owns, haccess]
    · have hnoaccess : principal.canAccessWorkspace r.lower e.workspaceId = false := by simpa using haccess
      have houtside : principal.workspaceId ≠ e.workspaceId ∧ principal.isInternal r.lower = false := by
        simpa [Principal.canAccessWorkspace] using hnoaccess
      simp [canViewEvent, PrivateEvent.toActivity, hnoaccess, houtside]

/-- What a principal is delivered tells nothing about private data, nothing is delivered to
a principal that is denied the event, and what is delivered keeps the shape of the public payload. -/
theorem eventForPrincipal_private (r : Redaction κ) (principal : Principal) :
    (∀ e e' : PrivateEvent κ α, r.AlikeEvents e e' →
      r.eventForPrincipal e principal = r.eventForPrincipal e' principal) ∧
    (∀ e : PrivateEvent κ α, r.eventForPrincipal e principal = none ↔ r.Denied e principal) ∧
    ∀ e d : PrivateEvent κ α, r.eventForPrincipal e principal = some d →
      r.ComparedEntries (fun s t => t = r.redactText s) (fun _ w => w = .text redacted) (publicEntries e)
        (entriesOf d.payload) := by
  refine ⟨fun e e' h => r.eventForPrincipal_of_alike h principal,
    fun e => r.eventForPrincipal_eq_none_iff e principal, ?_⟩
  intro e d h
  rw [(r.eventForPrincipal_some h).2.1]
  exact r.masks_redactEntries (publicEntries e)

/-! An administrator who is not the owner. -/

def plainRedaction : Redaction Nat where
  lower := String.toLower
  lower_empty := by decide +kernel
  str := toString
  sub _ text := text

def ownedEvent : PrivateEvent Nat Int where
  id := "e"
  threadId := "t"
  workspaceId := "w"
  ownerUserId := some "owner"
  eventType := "run.started"
  createdAt := 0

def administrator : Principal where
  principalId := "p"
  workspaceId := "w"
  userId := "administrator"
  authenticated := true
  roles := ["admin"]

theorem administrator_not_owner :
    ¬ ∀ (e : PrivateEvent Nat Int) (principal : Principal),
      principal.authenticated = false ∨
        principal.workspaceId ≠ e.workspaceId ∧ principal.isInternal plainRedaction.lower = false ∨
        e.visibility = .internal ∧ principal.isInternal plainRedaction.lower = false ∨
        e.visibility = .admin ∧ principal.isAdmin plainRedaction.lower = false ∨
        (∃ owner, e.ownerUserId = some owner ∧ principal.userId ≠ owner) →
      plainRedaction.eventForPrincipal e principal = none := by
  intro h
  have hnone := h ownedEvent administrator
    (Or.inr (Or.inr (Or.inr (Or.inr ⟨"owner", rfl, by decide⟩))))
  have hdelivered : (plainRedaction.eventForPrincipal ownedEvent administrator).isSome = true := by
    decide +kernel
  simp [hnone] at hdelivered

end Redaction

end SelericSwarm
