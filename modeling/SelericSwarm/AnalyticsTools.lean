import SelericSwarm.Conversations
import SelericSwarm.Decimals
import SelericSwarm.GrainSet
import SelericSwarm.Grouping
import SelericSwarm.Outcomes

/-! What the analytics tools share: evidence is read from the store, findings are written to it. -/
namespace SelericSwarm.Analytics
open Keyed List Option

/-! `artifacts.py`. -/

structure EvidenceArtifact where
  metricId : String
  dimensions : Dict String String := .empty
  grain : String
  periodStart : Datetime
  periodEnd : Datetime
  value : Option ℚ

def EvidenceArtifact.fact (e : EvidenceArtifact) : Agent.PeriodFact where
  metricId := e.metricId
  grain := e.grain
  periodStart := e.periodStart
  periodEnd := e.periodEnd

structure Finding where
  findingType : String
  statement : String
  evidenceIds : List String
  metrics : Dict String ℚ
  cited : evidenceIds ≠ []

/-- What a writer put there, or a finding. -/
inductive ArtifactPayload where
  | stored (payload : Payload)
  | finding (f : Finding)

structure Artifact where
  id : String
  workspaceId : String
  artifactType : String
  payload : ArtifactPayload
  classification : ArtifactClassification
  evidenceIds : List String := []
  provenance : ArtifactProvenance := {}
  missionId : Option String := none

def Artifact.requireProvenance (a : Artifact) : Except StoreError Artifact :=
  let envelope : SelericSwarm.Artifact :=
    { id := a.id, workspaceId := a.workspaceId, artifactType := a.artifactType, payload := .empty
      classification := a.classification, evidenceIds := a.evidenceIds, provenance := a.provenance, createdAt := 0 }
  match envelope.requireProvenance with
  | .error error => .error error
  | .ok kept => .ok { a with evidenceIds := kept.evidenceIds, provenance := kept.provenance }

/-! `state/artifacts.py`. -/

abbrev ArtifactStore := Table Artifact.id

/-- `put`; nothing where it raises. -/
def ArtifactStore.put (store : ArtifactStore) (a : Artifact) : Option ArtifactStore :=
  match store.get? a.id, a.requireProvenance with
  | none, .ok stored => some (Table.put store stored)
  | _, _ => none

/-- A tool result, with the part of its provenance that these tools fill. -/
structure ToolResult extends Agent.ToolResult where
  basis : ArtifactProvenance := {}

/-- The schema's reading of a payload (or the text of the exception), `repr` of a text, and fresh ids. -/
structure Runtime where
  evidence : ArtifactPayload → Except String EvidenceArtifact
  repr : String → String
  uuid : Nat → UuidHex

/-- The store, and how many ids have been issued. -/
structure Desk where
  artifacts : ArtifactStore
  issued : Nat

/-! `toolsets/analytics.py`. -/

def calculationVersion : String := "analytics.v1"

def provenance (evidenceIds : List String) : ArtifactProvenance where
  evidenceIds := evidenceIds
  calculationVersion := some calculationVersion

def refuse (summary errorCode : String) (h : errorCode ≠ "" := by simp) : ToolResult where
  toToolResult := Agent.failure summary errorCode false h

def insufficient (summary : String) : ToolResult := refuse summary "INSUFFICIENT_EVIDENCE" Agent.insufficient_ne

def computed (artifactIds : List String) (summary : String) (evidenceIds : List String) (warnings : List String := []) :
    ToolResult where
  success := true
  artifactIds := artifactIds
  summary := summary
  warnings := warnings
  basis := provenance evidenceIds
  envelope := Agent.envelope_of_success artifactIds

/-- `f"{q:+.{precision}g}"` -/
def signedGeneral (precision : ℕ) (q : ℚ) : String :=
  if q < 0 then Decimals.general precision q else "+" ++ Decimals.general precision q

section Tools
variable (py : Runtime) (deps : Agent.SelericDeps)

def readEvidence (a : Artifact) : Except ToolResult EvidenceArtifact :=
  if a.artifactType ≠ "evidence" then
    .error (insufficient ("artifact " ++ a.id ++ " is artifact_type=" ++ py.repr a.artifactType ++ ", not evidence"))
  else
    match py.evidence a.payload with
    | .error exc => .error (insufficient ("artifact " ++ a.id ++ " payload is not a valid EvidenceArtifact: " ++ exc))
    | .ok evidence => .ok evidence

/-- The loop over the artifacts: the first that cannot be read ends it. -/
def readAll : List Artifact → Except ToolResult (List EvidenceArtifact)
  | [] => .ok []
  | a :: artifacts =>
    match readEvidence py a with
    | .error refusal => .error refusal
    | .ok evidence =>
      match readAll artifacts with
      | .error refusal => .error refusal
      | .ok rest => .ok (evidence :: rest)

def loadEvidence (store : ArtifactStore) (evidenceIds : List String) : Except ToolResult (List EvidenceArtifact) :=
  if evidenceIds = [] then .error (insufficient "no evidence_ids supplied")
  else
    let artifacts := evidenceIds.filterMap store.get?
    let missing := evidenceIds.filter fun id => id ∉ artifacts.map Artifact.id
    if missing ≠ [] then .error (insufficient ("evidence not found in store: " ++ ", ".intercalate missing))
    else readAll py artifacts

/-- The evidence that the ids stand for, where the grain gate lets it through. -/
def gatedEvidence (store : ArtifactStore) (evidenceIds : List String) : Except ToolResult (List EvidenceArtifact) :=
  match loadEvidence py store evidenceIds with
  | .error refusal => .error refusal
  | .ok evidence =>
    match Agent.validateGrainSet (evidence.map EvidenceArtifact.fact) with
    | some mismatch => .error (refuse mismatch "EVIDENCE_GRAIN_MISMATCH")
    | none => .ok evidence

def Desk.findingOf (desk : Desk) (f : Finding) : Artifact where
  id := newId "artifact" (py.uuid desk.issued)
  workspaceId := deps.workspaceId
  artifactType := "finding"
  payload := .finding f
  classification := .derived
  evidenceIds := f.evidenceIds
  provenance := provenance f.evidenceIds
  missionId := some deps.missionId

/-- `_write_finding`; no id where it raises. -/
def writeFinding (desk : Desk) (f : Finding) : Option String × Desk :=
  let artifact := desk.findingOf py deps f
  match desk.artifacts.put artifact with
  | none => (none, { desk with issued := desk.issued + 1 })
  | some store => (some artifact.id, { artifacts := store, issued := desk.issued + 1 })

/-- What was written before an exception stays. -/
def writeFindings : List Finding → Desk → Option (List String) × Desk
  | [], desk => (some [], desk)
  | f :: findings, desk =>
    match writeFinding py deps desk f with
    | (none, desk) => (none, desk)
    | (some id, desk) =>
      match writeFindings findings desk with
      | (none, desk) => (none, desk)
      | (some ids, desk) => (some (id :: ids), desk)

/-! Reading. -/

def readAt (store : ArtifactStore) (id : String) : Option EvidenceArtifact :=
  (store.get? id).bind fun a => (readEvidence py a).toOption

def readings (store : ArtifactStore) (evidenceIds : List String) : List (String × EvidenceArtifact) :=
  evidenceIds.filterMap fun id => (readAt py store id).map (Prod.mk id)

variable {py deps} {store : ArtifactStore} {evidenceIds : List String} {evidence : List EvidenceArtifact}

theorem readAll_ok_iff : ∀ artifacts evidence,
    readAll py artifacts = .ok evidence ↔ artifacts.map (fun a => (readEvidence py a).toOption) = evidence.map some := by
  refine Outcomes.all_eq_ok rfl fun a artifacts => ?_
  rw [readAll]
  cases readEvidence py a with
  | error refusal => exact .inl ⟨refusal, rfl, rfl⟩
  | ok e =>
    refine .inr ⟨e, ?_, rfl⟩
    cases readAll py artifacts <;> rfl

theorem filterMap_get?_of_found {ids : List String} (h : ∀ id ∈ ids, ∃ a, store.get? id = some a) :
    (ids.filterMap store.get?).map (fun a => (readEvidence py a).toOption) = ids.map (readAt py store) := by
  induction ids with
  | nil => rfl
  | cons id ids ih =>
    obtain ⟨a, ha⟩ := h id mem_cons_self
    rw [filterMap_cons_some ha, map_cons, map_cons, ih fun id hid => h id (mem_cons_of_mem _ hid),
      readAt, ha, bind_some]

theorem missing_eq_nil_iff {store : ArtifactStore} {ids : List String} :
    (ids.filter fun id => id ∉ (ids.filterMap store.get?).map Artifact.id) = [] ↔ ∀ id ∈ ids, ∃ a, store.get? id = some a := by
  rw [filter_eq_nil_iff]
  constructor
  · intro h id hid
    have hmem := h id hid
    simp only [decide_eq_true_eq, not_not] at hmem
    obtain ⟨a, ha, rfl⟩ := List.mem_map.mp hmem
    obtain ⟨id', -, hget⟩ := mem_filterMap.mp ha
    rw [Table.key_of_get? hget]
    exact ⟨a, hget⟩
  · intro h id hid
    obtain ⟨a, hget⟩ := h id hid
    have hmem : id ∈ (ids.filterMap store.get?).map Artifact.id :=
      List.mem_map.mpr ⟨a, mem_filterMap.mpr ⟨id, hid, hget⟩, Table.key_of_get? hget⟩
    simp [hmem]

theorem load_ok_iff {nothing missed : ToolResult} {readAll : List Artifact → Except ToolResult (List EvidenceArtifact)}
    (hread : ∀ artifacts evidence, readAll artifacts = .ok evidence ↔
      artifacts.map (fun a => (readEvidence py a).toOption) = evidence.map some) :
    (if evidenceIds = [] then .error nothing
      else if (evidenceIds.filter fun id => id ∉ (evidenceIds.filterMap store.get?).map Artifact.id) ≠ [] then .error missed
      else readAll (evidenceIds.filterMap store.get?)) = .ok evidence ↔
    evidenceIds ≠ [] ∧ evidenceIds.map (readAt py store) = evidence.map some := by
  split
  · next hnone => exact ⟨fun h => (by cases h), fun h => absurd hnone h.1⟩
  · next hsome =>
    split
    · next hmissing =>
      refine ⟨fun h => (by cases h), fun h => absurd (missing_eq_nil_iff.mpr fun id hid => ?_) hmissing⟩
      have hread : readAt py store id ∈ evidence.map some := h.2 ▸ List.mem_map_of_mem hid
      obtain ⟨e, -, he⟩ := List.mem_map.mp hread
      obtain ⟨a, ha, -⟩ := bind_eq_some_iff.mp he.symm
      exact ⟨a, ha⟩
    · next hall =>
      rw [hread, filterMap_get?_of_found (missing_eq_nil_iff.mp (not_not.mp hall))]
      exact ⟨fun h => ⟨hsome, h⟩, And.right⟩

theorem loadEvidence_ok_iff : loadEvidence py store evidenceIds = .ok evidence ↔
    evidenceIds ≠ [] ∧ evidenceIds.map (readAt py store) = evidence.map some := load_ok_iff readAll_ok_iff

theorem gatedEvidence_ok_iff : gatedEvidence py store evidenceIds = .ok evidence ↔
    evidenceIds ≠ [] ∧ evidenceIds.map (readAt py store) = evidence.map some ∧
      Agent.validateGrainSet (evidence.map EvidenceArtifact.fact) = none := by
  unfold gatedEvidence
  split
  · next refusal hrefused =>
    refine ⟨fun h => (by cases h), fun ⟨hne, hread, _⟩ => ?_⟩
    rw [loadEvidence_ok_iff.mpr ⟨hne, hread⟩] at hrefused
    cases hrefused
  · next loaded hloaded =>
    obtain ⟨hne, hread⟩ := loadEvidence_ok_iff.mp hloaded
    have hsame : evidenceIds.map (readAt py store) = evidence.map some → loaded = evidence := by
      intro h
      rw [hread, List.map_inj_right fun _ _ => Option.some.inj] at h
      exact h
    split
    · next mismatch hmismatch =>
      refine ⟨fun h => (by cases h), fun ⟨_, h, hvalid⟩ => ?_⟩
      rw [hsame h, hvalid] at hmismatch
      cases hmismatch
    · next hvalid =>
      constructor
      · intro h
        cases h
        exact ⟨hne, hread, hvalid⟩
      · intro ⟨_, h, _⟩
        rw [hsame h]

theorem map_eq_map_some {α β : Type} {g : α → Option β} (as : List α) : ∀ bs : List β,
    as.map g = bs.map some ↔ bs = as.filterMap g ∧ ∀ a ∈ as, (g a).isSome := by
  induction as with
  | nil =>
    intro bs
    constructor
    · intro h
      exact ⟨map_eq_nil_iff.mp h.symm, fun a ha => by cases ha⟩
    · intro h
      rw [h.1]
      rfl
  | cons a as ih =>
    intro bs
    cases hg : g a with
    | none =>
      constructor
      · intro h
        cases bs with
        | nil => cases h
        | cons b bs =>
          rw [map_cons, hg] at h
          cases h
      · intro h
        have hsome := h.2 a mem_cons_self
        rw [hg] at hsome
        cases hsome
    | some b =>
      rw [filterMap_cons_some hg, map_cons, hg]
      constructor
      · intro h
        cases bs with
        | nil => cases h
        | cons b' bs =>
          obtain ⟨hfirst, hrest⟩ := List.cons.inj h
          cases hfirst
          obtain ⟨hbs, hall⟩ := (ih bs).mp hrest
          refine ⟨by rw [← hbs], fun a' ha' => ?_⟩
          obtain rfl | ha' := mem_cons.mp ha'
          · rw [hg]
            rfl
          · exact hall a' ha'
      · intro h
        rw [h.1, map_cons, ← (ih (as.filterMap g)).mpr ⟨rfl, fun a' ha' => h.2 a' (mem_cons_of_mem a ha')⟩]

theorem gatedEvidence_perm {evidenceIds' : List String} (h : gatedEvidence py store evidenceIds = .ok evidence)
    (hperm : evidenceIds.Perm evidenceIds') :
    ∃ evidence', gatedEvidence py store evidenceIds' = .ok evidence' ∧ evidence.Perm evidence' := by
  obtain ⟨hne, hread, hvalid⟩ := gatedEvidence_ok_iff.mp h
  obtain ⟨hevidence, hall⟩ := (map_eq_map_some evidenceIds evidence).mp hread
  have hsame : evidence.Perm (evidenceIds'.filterMap (readAt py store)) := by
    rw [hevidence]
    exact hperm.filterMap _
  refine ⟨_, gatedEvidence_ok_iff.mpr ⟨fun hnil => hne ?_, ?_, ?_⟩, hsame⟩
  · rw [hnil] at hperm
    exact hperm.eq_nil
  · exact (map_eq_map_some _ _).mpr ⟨rfl, fun id hid => hall id (hperm.mem_iff.mpr hid)⟩
  · rw [Agent.validateGrainSet_eq_none] at hvalid ⊢
    exact hvalid.subset (hsame.map _).symm.subset

theorem zip_eq_readings (ids : List String) : ∀ evidence : List EvidenceArtifact,
    ids.map (readAt py store) = evidence.map some → ids.zip evidence = readings py store ids := by
  induction ids with
  | nil =>
    intro evidence _
    rfl
  | cons id ids ih =>
    intro evidence h
    cases evidence with
    | nil => cases h
    | cons e evidence =>
      obtain ⟨hfirst, hrest⟩ := List.cons.inj h
      rw [zip_cons_cons, ih evidence hrest, readings, readings, filterMap_cons_some]
      rw [hfirst, map_some]

theorem readings_perm {evidenceIds' : List String} (h : evidenceIds.Perm evidenceIds') :
    (readings py store evidenceIds).Perm (readings py store evidenceIds') := h.filterMap _

theorem mem_readings {id : String} {e : EvidenceArtifact} :
    (id, e) ∈ readings py store evidenceIds ↔ id ∈ evidenceIds ∧ readAt py store id = some e := by
  rw [readings, mem_filterMap]
  constructor
  · intro ⟨id', hid, h⟩
    obtain ⟨e', he, hpair⟩ := map_eq_some_iff.mp h
    cases hpair
    exact ⟨hid, he⟩
  · intro ⟨hid, he⟩
    exact ⟨id, hid, by rw [he, map_some]⟩

end Tools

/-! Writing. -/

def Artifact.finding? (a : Artifact) : Option Finding :=
  match a.payload with
  | .finding f => some f
  | .stored _ => none

def Desk.findings (desk : Desk) (ids : List String) : List Finding :=
  ids.filterMap fun id => (desk.artifacts.get? id).bind Artifact.finding?

theorem Artifact.requireProvenance_kept {a stored : Artifact} (h : a.requireProvenance = .ok stored) :
    stored.id = a.id ∧ stored.payload = a.payload := by
  unfold Artifact.requireProvenance at h
  dsimp only at h
  split at h
  · cases h
  · cases h
    exact ⟨rfl, rfl⟩

section Writing
variable (py : Runtime) (deps : Agent.SelericDeps)

theorem writeFinding_cases (desk : Desk) (f : Finding) :
    writeFinding py deps desk f = (none, { desk with issued := desk.issued + 1 }) ∨
      ∃ stored : Artifact, stored.payload = .finding f ∧ desk.artifacts.get? stored.id = none ∧
        writeFinding py deps desk f =
          (some stored.id, { artifacts := Table.put desk.artifacts stored, issued := desk.issued + 1 }) := by
  unfold writeFinding ArtifactStore.put
  dsimp only
  cases hget : desk.artifacts.get? (desk.findingOf py deps f).id with
  | some a => exact Or.inl rfl
  | none =>
    cases hkept : (desk.findingOf py deps f).requireProvenance with
    | error e => exact Or.inl rfl
    | ok stored =>
      obtain ⟨hid, hpayload⟩ := Artifact.requireProvenance_kept hkept
      refine Or.inr ⟨stored, hpayload, by rw [hid, hget], ?_⟩
      rw [hid]

theorem writeFindings_keeps {id : String} {a : Artifact} (findings : List Finding) : ∀ desk : Desk,
    desk.artifacts.get? id = some a → (writeFindings py deps findings desk).2.artifacts.get? id = some a := by
  induction findings with
  | nil => exact fun _ h => h
  | cons f findings ih =>
    intro desk h
    rw [writeFindings]
    obtain hraised | ⟨stored, -, hfree, hwritten⟩ := writeFinding_cases py deps desk f
    · rw [hraised]
      exact h
    · have hkept : (Table.put desk.artifacts stored).get? id = some a := by
        rw [Table.get?_put, if_neg, h]
        intro hsame
        rw [← hsame, hfree] at h
        cases h
      have hrest := ih { artifacts := Table.put desk.artifacts stored, issued := desk.issued + 1 } hkept
      rw [hwritten]
      dsimp only
      split
      · next hnone =>
        rw [hnone] at hrest
        exact hrest
      · next hids =>
        rw [hids] at hrest
        exact hrest

theorem writeFindings_new {id : String} {a : Artifact} (findings : List Finding) : ∀ desk : Desk,
    (writeFindings py deps findings desk).2.artifacts.get? id = some a →
      desk.artifacts.get? id = some a ∨ ∃ f ∈ findings, a.payload = .finding f := by
  induction findings with
  | nil => exact fun _ h => Or.inl h
  | cons f findings ih =>
    intro desk h
    rw [writeFindings] at h
    obtain hraised | ⟨stored, hpayload, -, hwritten⟩ := writeFinding_cases py deps desk f
    · rw [hraised] at h
      exact Or.inl h
    · have hrest := ih { artifacts := Table.put desk.artifacts stored, issued := desk.issued + 1 }
      have hsecond : (Table.put desk.artifacts stored).get? id = some a ∨ ∃ f ∈ findings, a.payload = .finding f := by
        apply hrest
        rw [hwritten] at h
        dsimp only at h
        split at h
        · next hnone =>
          rw [hnone]
          exact h
        · next hids =>
          rw [hids]
          exact h
      obtain hput | ⟨g, hg, hpayload'⟩ := hsecond
      · rw [Table.get?_put] at hput
        split at hput
        · cases hput
          exact Or.inr ⟨f, mem_cons_self, hpayload⟩
        · exact Or.inl hput
      · exact Or.inr ⟨g, mem_cons_of_mem f hg, hpayload'⟩

theorem findings_of_writeFindings (findings : List Finding) : ∀ (desk desk' : Desk) (ids : List String),
    writeFindings py deps findings desk = (some ids, desk') → desk'.findings ids = findings := by
  induction findings with
  | nil =>
    intro desk desk' ids h
    cases h
    rfl
  | cons f findings ih =>
    intro desk desk' ids h
    rw [writeFindings] at h
    obtain hraised | ⟨stored, hpayload, -, hwritten⟩ := writeFinding_cases py deps desk f
    · rw [hraised] at h
      cases h
    · rw [hwritten] at h
      dsimp only at h
      split at h
      · cases h
      · next ids' desk'' hrest =>
        cases h
        have hkept := writeFindings_keeps py deps findings
          { artifacts := Table.put desk.artifacts stored, issued := desk.issued + 1 } (Table.get?_put_self _ stored)
        rw [hrest] at hkept
        have hfound : (desk'.artifacts.get? stored.id).bind Artifact.finding? = some f := by
          rw [hkept, bind_some, Artifact.finding?, hpayload]
        have htail : desk'.findings ids' = findings := ih _ _ _ hrest
        rw [Desk.findings] at htail ⊢
        rw [filterMap_cons, hfound, htail]

/-- The next so many ids are taken by nothing. -/
structure Fresh (desk : Desk) (n : Nat) : Prop where
  free : ∀ i < n, desk.artifacts.get? (newId "artifact" (py.uuid (desk.issued + i))) = none
  apart : ∀ i < n, ∀ j < i, newId "artifact" (py.uuid (desk.issued + j)) ≠ newId "artifact" (py.uuid (desk.issued + i))

/-- A finding cites evidence and names its version. -/
theorem requireProvenance_findingOf (desk : Desk) (f : Finding) :
    ∃ stored, (desk.findingOf py deps f).requireProvenance = .ok stored := by
  have hevidence : ∀ a : SelericSwarm.Artifact, a.evidenceIds ≠ [] → a.evidence ≠ [] := by
    intro a hne hnil
    obtain ⟨id, hid⟩ := exists_mem_of_ne_nil _ hne
    have hmem : id ∈ a.evidence := by
      rw [SelericSwarm.Artifact.evidence, mem_reverse, mem_dedup, mem_reverse, mem_append]
      exact Or.inl hid
    rw [hnil] at hmem
    cases hmem
  unfold Artifact.requireProvenance SelericSwarm.Artifact.requireProvenance
  dsimp only
  rw [if_neg (by simp [Desk.findingOf]), if_neg (hevidence _ f.cited),
    if_neg (by simp [Desk.findingOf, SelericSwarm.Artifact.versions, provenance, calculationVersion])]
  exact ⟨_, rfl⟩

theorem writeFindings_of_fresh (findings : List Finding) : ∀ desk : Desk, Fresh py desk findings.length →
    ∃ ids desk', writeFindings py deps findings desk = (some ids, desk') := by
  induction findings with
  | nil => exact fun desk _ => ⟨[], desk, rfl⟩
  | cons f findings ih =>
    intro desk h
    obtain ⟨stored, hkept⟩ := requireProvenance_findingOf py deps desk f
    have hid := (Artifact.requireProvenance_kept hkept).1
    have hfree : desk.artifacts.get? (desk.findingOf py deps f).id = none := h.free 0 (Nat.zero_lt_succ _)
    have hwritten : writeFinding py deps desk f = (some (desk.findingOf py deps f).id,
        { artifacts := Table.put desk.artifacts stored, issued := desk.issued + 1 }) := by
      unfold writeFinding ArtifactStore.put
      dsimp only
      rw [hfree, hkept]
    have hrest : Fresh py { artifacts := Table.put desk.artifacts stored, issued := desk.issued + 1 } findings.length := by
      constructor
      · intro i hi
        have hshift : desk.issued + 1 + i = desk.issued + (i + 1) := by omega
        have hne := h.apart (i + 1) (Nat.succ_lt_succ hi) 0 (Nat.zero_lt_succ i)
        have hnext := h.free (i + 1) (Nat.succ_lt_succ hi)
        rw [Table.get?_put, if_neg, hshift]
        · exact hnext
        · rw [hid, hshift]
          exact hne
      · intro i hi j hj
        have hne := h.apart (i + 1) (Nat.succ_lt_succ hi) (j + 1) (Nat.succ_lt_succ hj)
        have hi' : desk.issued + 1 + i = desk.issued + (i + 1) := by omega
        have hj' : desk.issued + 1 + j = desk.issued + (j + 1) := by omega
        rw [hi', hj']
        exact hne
    obtain ⟨ids, desk', hids⟩ := ih _ hrest
    refine ⟨(desk.findingOf py deps f).id :: ids, desk', ?_⟩
    rw [writeFindings, hwritten]
    dsimp only
    rw [hids]

theorem Fresh.mono {desk : Desk} {m n : Nat} (h : Fresh py desk n) (hmn : m ≤ n) : Fresh py desk m where
  free i hi := h.free i (hi.trans_le hmn)
  apart i hi := h.apart i (hi.trans_le hmn)

end Writing

end SelericSwarm.Analytics
