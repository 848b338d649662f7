import Mathlib.Data.List.Infix
import SelericSwarm.MetricsQuery

/-! The events of a mission, filed as activity events of a run. -/
namespace SelericSwarm.MissionIngestion
open Keyed List

/-- What the mapping takes from elsewhere: `str` of what is no text, `int` of a text, `strip().lower()`, and the
datetimes that a field accepts. -/
structure Texts where
  repr : Json → String
  int : String → Option Int
  fold : String → String
  datetime : String → Option Moment

/-- What stops the ingestion. -/
inductive MappingError where
  | typeError
  | validationError
  | store (message : String)

/-- `MappedEvent` is the activity event with the fields that the store does not look at. -/
structure MappedEvent extends ActivityEvent where
  actorType : Option String := none
  actorId : Option String := none
  title : Option String := none
  evidenceIds : List String := []
  metadata : Payload := .empty
  durationMs : Option Nat := none
  createdAt : Moment

/-! `event_mapping_v1.py`. -/

def mappingVersion : String := "1"

def kindAliases : List (String × String) :=
  [("query_normalized", "mission_created"), ("plan_created", "task_plan_created"),
    ("decide_execute_wave", "task_wave_executed"), ("budget_exhausted", "mission_budget_exhausted"),
    ("handoff_rejected", "leadership_rejected"), ("skeptic_revise_remediation", "remediation_planned"),
    ("remediation_activate", "remediation_activated")]

def canonicalKind (kind : String) : String := (kindAliases.lookup kind).getD kind

def exactKindMap : List (String × String) :=
  [("mission_accepted", "run.started"), ("mission_created", "run.started"), ("query_normalized", "intent.resolved"),
    ("decomposition_created", "intent.resolved"), ("decomposition_refined", "intent.resolved"),
    ("task_plan_created", "plan.created"), ("plan_created", "plan.created"),
    ("task_specialists_activated", "agent.started"), ("leadership_transfer", "agent.handoff"),
    ("leadership_rejected", "warning.created"), ("claim_proposed", "evidence.added"),
    ("claim_validated", "decision.recorded"), ("claim_challenged", "warning.created"),
    ("claim_rejected", "warning.created"), ("skeptic_gate", "decision.recorded"), ("skeptic_pass", "decision.recorded"),
    ("skeptic_revise", "warning.created"), ("skeptic_reject", "warning.created"), ("remediation_planned", "plan.created"),
    ("remediation_activated", "agent.started"), ("remediation_round_done", "agent.completed"),
    ("specialist_error", "tool.failed"), ("specialist_skipped_policy", "warning.created"),
    ("observed", "agent.completed"), ("observe_skipped", "warning.created"), ("anomaly_done", "agent.completed"),
    ("diagnostic_done", "agent.completed"), ("prediction_done", "agent.completed"), ("strategy_done", "agent.completed"),
    ("mission_completed", "run.completed"), ("mission_partial", "run.completed"), ("mission_failed", "run.failed"),
    ("mission_cancelled", "run.cancelled"), ("mission_budget_exhausted", "warning.created")]

def safeSourceFields : List String :=
  ["agent", "agent_id", "artifact_id", "artifact_type", "claim_id", "confidence", "decision", "description",
    "duration_ms", "error", "error_code", "evidence_id", "evidence_ids", "family", "from_agent", "intent", "legacy_kind",
    "message", "mission_id", "name", "reason_code", "route", "specialist", "status", "summary", "task_id", "title",
    "to_agent", "tool", "tool_name", "warning", "wave", "workflow_name", "workflow_version"]

def startsWith (text front : String) : Bool := front.toList.isPrefixOf text.toList

def endsWith (text rear : String) : Bool := rear.toList.isSuffixOf text.toList

/-- `term in text` -/
def contains (text term : String) : Bool := term.toList <:+: text.toList

section Mapping
variable (py : Texts)

def eventTypeForMissionKind (kind : String) : Option String :=
  let original := py.fold kind
  match (exactKindMap.lookup original).or (exactKindMap.lookup (canonicalKind original)) with
  | some mapped => some mapped
  | none =>
    if startsWith original "tool_" then
      if ["failed", "error"].any (contains original) then some "tool.failed"
      else if ["completed", "done", "result"].any (contains original) then some "tool.completed"
      else some "tool.started"
    else if startsWith original "artifact_" then some "artifact.created"
    else if startsWith original "specialist_" then
      some (if endsWith original "_done" || endsWith original "_completed" then "agent.completed" else "agent.started")
    else none

/-- `str(a or b or "")` -/
def firstText (event : Payload) (fields : List String) : String :=
  match (fields.filterMap event.get?).find? Agent.truthy with
  | none => ""
  | some (.str text) => text
  | some value => py.repr value

/-- `text or None` -/
def nonempty (text : String) : Option String := if text = "" then none else some text

/-- `int(value)` -/
def intOf : Json → Option Int
  | .num n => some n
  | .bool b => some (if b then 1 else 0)
  | .str text => py.int text
  | _ => none

def kindOf (event : Payload) : String := py.fold (firstText py event ["kind", "legacy_kind"])

def seqPart (event : Payload) : Int :=
  match event.get? "seq" with
  | none => 0
  | some value => if Agent.truthy value then (intOf py value).getD 0 else 0

def seqDiscriminator (ordinal : Nat) (event : Payload) : String :=
  if 0 < seqPart py event then "seq" ++ toString (seqPart py event).toNat else "p" ++ toString ordinal

/-- The items of `event.get("evidence_ids", [])`, unless it cannot be iterated over. -/
def evidenceItems (event : Payload) : Option (List Json) :=
  match event.get? "evidence_ids" with
  | none => some []
  | some (.arr items) => some items
  | some (.str text) => some (text.toList.map fun c => .str (String.singleton c))
  | some (.obj entries) => some (entries.map fun entry => .str entry.1)
  | some _ => none

/-- `str(item)` -/
def textOf : Json → String
  | .str text => text
  | value => py.repr value

/-- `created_at`: the text of `ts`, as the event's field reads it, or when the run was created. -/
def createdAtOf (run : Run) (event : Payload) : Option Moment :=
  match event.get? "ts" with
  | some (.str text) => py.datetime text
  | _ => some run.createdAt

/-- `duration_ms`, which the event's field accepts from 0 on. -/
def durationOf (event : Payload) : Option (Option Nat) :=
  match event.get? "duration_ms" with
  | some (.num n) => if n < 0 then none else some (some n.toNat)
  | some (.bool b) => some (some (if b then 1 else 0))
  | _ => some none

def safePayload (source : Payload) (kind : String) : Payload :=
  let safe : Payload := source.filter fun entry => entry.1 ∈ safeSourceFields && entry.1 ∉ ["title", "summary"]
  (safe.set "source_kind" (.str kind)).set "mapping_version" (.str mappingVersion)

def missionEventId (runId attemptId discriminator kind : String) : String :=
  "event_mission_" ++ runId ++ "_" ++ attemptId ++ "_" ++ discriminator ++ "_" ++ kind

def mapMissionEvent (run : Run) (attemptId : String) (event : Payload) (ordinal : Nat) :
    Except MappingError (Option MappedEvent) :=
  let kind := kindOf py event
  match eventTypeForMissionKind py kind with
  | none => .ok none
  | some eventType =>
    match evidenceItems event, createdAtOf py run event, durationOf event with
    | none, _, _ => .error .typeError
    | some items, some createdAt, some durationMs =>
      .ok (some {
        id := missionEventId run.id attemptId (seqDiscriminator py ordinal event) kind
        threadId := run.threadId
        workspaceId := run.workspaceId
        runId := some run.id
        ownerUserId := some run.requestedByUserId
        eventType := eventType
        actorType := some (if startsWith eventType "agent." || startsWith eventType "tool." then "agent" else "system")
        actorId := nonempty (firstText py event ["specialist", "agent_id"])
        title := nonempty (firstText py event ["title"])
        summary := nonempty (firstText py event ["summary", "message"])
        visibility := .user
        evidenceIds := items.map (textOf py)
        payload := safePayload event kind
        metadata := (Dict.empty.set "source" (.str "mission_event")).set "mapping_version" (.str mappingVersion)
        durationMs := durationMs
        createdAt := createdAt })
    | _, _, _ => .error .validationError

/-! `ActivityEventSink`. What the notifier raises is suppressed. -/

section Ingestion
variable (run : Run) (attemptId : String) (excluded : List String)

/-- The body of the loop of `ingest_mission_events` -/
def ingestOne (s : RunRepository) (source : Payload × Nat) :
    Except MappingError (Option ActivityEvent) × RunRepository :=
  match mapMissionEvent py run attemptId source.1 source.2 with
  | .error error => (.error error, s)
  | .ok none => (.ok none, s)
  | .ok (some mapped) =>
    if mapped.eventType ∈ excluded then (.ok none, s)
    else match s.appendEvent mapped.toActivityEvent with
      | (.ok appended, s) => (.ok (some appended), s)
      | (.error message, s) => (.error (.store message), s)

def ingestEach (s : RunRepository) : List (Payload × Nat) → Except MappingError (List ActivityEvent) × RunRepository
  | [] => (.ok [], s)
  | source :: rest =>
    match ingestOne py run attemptId excluded s source with
    | (.error error, s) => (.error error, s)
    | (.ok appended, s) =>
      match ingestEach s rest with
      | (.error error, s) => (.error error, s)
      | (.ok later, s) => (.ok (appended.toList ++ later), s)

def ingestMissionEvents (s : RunRepository) (events : List Payload) :
    Except MappingError (List ActivityEvent) × RunRepository :=
  ingestEach py run attemptId excluded s (events.zipIdx 1)

end Ingestion
/-! What is asked of the sources, and what the log holds after an ingestion. -/

def Wanted (excluded : List String) (source : Payload × Nat) : Bool :=
  (eventTypeForMissionKind py (kindOf py source.1)).any (· ∉ excluded)

/-- A source that is mapped has ids, a time and a duration that an event can have. -/
def Readable (run : Run) (event : Payload) : Prop :=
  (eventTypeForMissionKind py (kindOf py event)).isSome →
    (evidenceItems event).isSome ∧ (createdAtOf py run event).isSome ∧ (durationOf event).isSome

def idOf (runId attemptId : String) (source : Payload × Nat) : String :=
  missionEventId runId attemptId (seqDiscriminator py source.2 source.1) (kindOf py source.1)

/-- The log gives the source's event its numbers. -/
def Records (run : Run) (attemptId : String) (source : Payload × Nat) (event : ActivityEvent) : Prop :=
  ∃ mapped : MappedEvent, mapMissionEvent py run attemptId source.1 source.2 = .ok (some mapped) ∧
    event = { mapped.toActivityEvent with sequence := event.sequence, threadSequence := event.threadSequence }

/-- Exactly one event a source has been added to the log of the run, in the order of the sources. -/
def Appended (run : Run) (attemptId : String) (s s' : RunRepository) (sources : List (Payload × Nat)) : Prop :=
  ∃ stored, s'.eventsOf run.id = s.eventsOf run.id ++ stored ∧ List.Forall₂ (Records py run attemptId) sources stored ∧
    (stored.map (·.id)).Nodup

section Mapped
variable (run : Run) (attemptId : String) {source : Payload × Nat}

theorem mapMissionEvent_unmapped (h : eventTypeForMissionKind py (kindOf py source.1) = none) :
    mapMissionEvent py run attemptId source.1 source.2 = .ok none := by
  unfold mapMissionEvent
  dsimp only
  rw [h]

theorem mapMissionEvent_mapped {eventType : String} (h : eventTypeForMissionKind py (kindOf py source.1) = some eventType) :
    (Readable py run source.1 → ∃ mapped : MappedEvent, mapMissionEvent py run attemptId source.1 source.2 = .ok (some mapped) ∧
      mapped.id = idOf py run.id attemptId source ∧ mapped.eventType = eventType ∧ mapped.runId = some run.id ∧
      mapped.sequence = 0) ∧
    (¬Readable py run source.1 → ∃ error, mapMissionEvent py run attemptId source.1 source.2 = .error error) := by
  unfold mapMissionEvent Readable
  dsimp only
  rw [h]
  cases evidenceItems source.1 with
  | none => exact ⟨fun hreadable => absurd (hreadable rfl).1 Bool.false_ne_true, fun _ => ⟨_, rfl⟩⟩
  | some items =>
    cases createdAtOf py run source.1 with
    | none => exact ⟨fun hreadable => absurd (hreadable rfl).2.1 Bool.false_ne_true, fun _ => ⟨_, rfl⟩⟩
    | some createdAt =>
      cases durationOf source.1 with
      | none => exact ⟨fun hreadable => absurd (hreadable rfl).2.2 Bool.false_ne_true, fun _ => ⟨_, rfl⟩⟩
      | some duration => exact ⟨fun _ => ⟨_, rfl, rfl, rfl, rfl, rfl⟩, fun hnot => absurd (fun _ => ⟨rfl, rfl, rfl⟩) hnot⟩

end Mapped

/-! Runs of the loop. -/

section Runs
variable (run : Run) (attemptId : String) (excluded : List String)

variable {run : Run} {attemptId : String} {excluded : List String}

theorem records_id {source : Payload × Nat} {event : ActivityEvent} (h : Records py run attemptId source event) :
    event.id = idOf py run.id attemptId source := by
  obtain ⟨mapped, hmap, hevent⟩ := h
  cases htype : eventTypeForMissionKind py (kindOf py source.1) with
  | none =>
    rw [mapMissionEvent_unmapped py run attemptId htype] at hmap
    cases hmap
  | some eventType =>
    obtain ⟨hmapped, hstopped⟩ := mapMissionEvent_mapped py run attemptId htype
    by_cases hreadable : Readable py run source.1
    · obtain ⟨mapped', hmap', hid, -⟩ := hmapped hreadable
      rw [hmap'] at hmap
      cases hmap
      rw [hevent, hid]
    · obtain ⟨error, herror⟩ := hstopped hreadable
      rw [herror] at hmap
      cases hmap

theorem recorded_ids {sources : List (Payload × Nat)} {stored : List ActivityEvent}
    (h : List.Forall₂ (Records py run attemptId) sources stored) :
    stored.map (·.id) = sources.map (idOf py run.id attemptId) := by
  induction h with
  | nil => rfl
  | cons hrecords _ ih => rw [map_cons, map_cons, records_id py hrecords, ih]

end Runs
/-! The ids. -/

theorem toString_inj {n m : Nat} (h : toString n = toString m) : n = m := by
  have hdigits := congrArg (fun text : String => Nat.ofDigitChars 10 text.toList 0) h
  simpa [Nat.toString_eq_ofList_toDigits] using hdigits

/-- Every wanted source is filed once, a second ingestion files what is new in the list, and one under another attempt
files every wanted source again. -/
def Ingested (run : Run) (attemptId attemptId' : String) (excluded : List String) (events tail : List Payload)
    (s : RunRepository) : Prop :=
  ∃ first s₁ second s₂ third s₃,
    ingestMissionEvents py run attemptId excluded s events = (.ok first, s₁) ∧
      Appended py run attemptId s s₁ ((events.zipIdx 1).filter (Wanted py excluded)) ∧
    ingestMissionEvents py run attemptId excluded s₁ (events ++ tail) = (.ok second, s₂) ∧
      Appended py run attemptId s₁ s₂ ((tail.zipIdx (1 + events.length)).filter (Wanted py excluded)) ∧
    ingestMissionEvents py run attemptId' excluded s₂ (events ++ tail) = (.ok third, s₃) ∧
      Appended py run attemptId' s₂ s₃ (((events ++ tail).zipIdx 1).filter (Wanted py excluded))

section Whole
variable {run : Run} {attemptId attemptId' : String} {excluded : List String} {events tail : List Payload}
  {s s' : RunRepository}

variable {sources : List (Payload × Nat)}

section
variable (h : Appended py run attemptId s s' sources)
include h

theorem Appended.mem {source : Payload × Nat} (hsource : source ∈ sources) :
    ∃ item ∈ s'.eventsOf run.id, item.id = idOf py run.id attemptId source := by
  obtain ⟨stored, hlog, hall, -⟩ := h
  have hmem := List.mem_map_of_mem (f := idOf py run.id attemptId) hsource
  rw [← recorded_ids py hall] at hmem
  obtain ⟨item, hitem, hid⟩ := List.mem_map.mp hmem
  exact ⟨item, hlog ▸ mem_append_right _ hitem, hid⟩

theorem Appended.cases {item : ActivityEvent} (hitem : item ∈ s'.eventsOf run.id) :
    item ∈ s.eventsOf run.id ∨ ∃ source ∈ sources, item.id = idOf py run.id attemptId source := by
  obtain ⟨stored, hlog, hall, -⟩ := h
  rw [hlog, mem_append] at hitem
  obtain hitem | hitem := hitem
  · exact .inl hitem
  · have hid := List.mem_map_of_mem (f := fun event : ActivityEvent => event.id) hitem
    rw [recorded_ids py hall] at hid
    obtain ⟨source, hsource, hsame⟩ := List.mem_map.mp hid
    exact .inr ⟨source, hsource, hsame.symm⟩

theorem Appended.subset : s.eventsOf run.id ⊆ s'.eventsOf run.id := by
  obtain ⟨stored, hlog, -⟩ := h
  rw [hlog]
  exact subset_append_left _ _

end

end Whole
end Mapping

/-! Two lists. -/

def plainTexts : Texts where
  repr _ := "None"
  int _ := none
  fold := id
  datetime _ := none

end SelericSwarm.MissionIngestion
