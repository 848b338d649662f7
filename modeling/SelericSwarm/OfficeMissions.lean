import SelericSwarm.OfficeStream
import SelericSwarm.Paging

/-! The mission list of the office gateway: the store's own page, the registry of this process, and
the page of the V3 store, each cut off and judged by `can_access_mission` in its own order. -/
open List Option

namespace SelericSwarm.OfficeMissions
open Keyed Paging

/-- The entries of a raw payload that are read; `others` says whether it has more, be it null ones. -/
structure Payload where
  workspaceId : Option String := none
  ownerUserId : Option String := none
  status : Option String := none
  query : Option String := none
  route : Option String := none
  missionLead : Option String := none
  events : List OfficeEvent := []
  others : Bool := true
  deriving DecidableEq

/-- `not raw`. -/
def Payload.isEmpty (raw : Payload) : Bool :=
  raw = { others := false }

/-- A mission of the in-memory store: what is read of its result, and its payload where one was put. -/
structure StoredMission where
  missionId : String
  status : String
  finalResponse : Option String := none
  missionLead : Option String := none
  raw : Option Payload := none
  deriving DecidableEq

/-- A mission of the V3 store, with whether the artifact store has evidence for it. -/
structure V3Mission where
  missionId : String
  query : String
  status : String := "running"
  workspaceId : String
  ownerUserId : String
  createdAt : Int
  hasEvidence : Bool := false
  deriving DecidableEq

/-- The registry is an ordered dictionary, the mission registered last comes last. -/
structure Content where
  stored : Table StoredMission.missionId := .empty
  known : List String := []
  known_nodup : known.Nodup := by decide
  v3 : Table V3Mission.missionId := .empty

/-- What `list_missions` returns of a mission. -/
structure ListedMission where
  missionId : String
  query : String
  status : String
  route : Option String
  missionLead : Option String
  workspaceId : Option String
  ownerUserId : Option String
  lastSeq : Int

structure MissionHeader where
  missionId : String
  query : String
  status : String
  route : Option String
  missionLead : Option String
  lastSeq : Int
  deriving DecidableEq

/-- `m.get(...) or ...`. -/
def ListedMission.header (m : ListedMission) : MissionHeader where
  missionId := m.missionId
  query := (truthy (some m.query)).getD ""
  status := (truthy (some m.status)).getD "running"
  route := m.route
  missionLead := truthy m.missionLead
  lastSeq := m.lastSeq

structure MissionList where
  count : Nat
  missions : List MissionHeader
  deriving DecidableEq

/-- `max((int(e.get("seq") or 0) for e in events), default=0)`, unless a sequence is no number. -/
def maxSeq (events : List OfficeEvent) : Option Int :=
  (withSeqs events).map fun entries => (entries.map Prod.fst).max?.getD 0

/-- `store.get(mission_id).model_dump()`. -/
def StoredMission.dump (m : StoredMission) : Payload where
  status := some m.status
  missionLead := m.missionLead

/-- `_mission_events`. -/
def V3Mission.events (m : V3Mission) : List OfficeEvent :=
  { seq := .number 1, kind := some "mission_created", family := some "mission" } ::
    ((if m.hasEvidence then [{ seq := .number 2, kind := some "task_wave_executed", family := some "mission" }] else []) ++
      if m.status = "running" then []
      else [{
        seq := .number (if m.hasEvidence then 3 else 2)
        kind := some (if m.status ∈ ["completed", "partial", "failed", "cancelled"] then "mission_" ++ m.status else "mission_completed")
        family := some "mission" }])

/-- `v3_raw_snapshot`. -/
def V3Mission.snapshot (m : V3Mission) : Payload where
  workspaceId := some m.workspaceId
  ownerUserId := some m.ownerUserId
  status := some m.status
  query := some m.query
  route := some "v3"
  missionLead := some "coordinator"
  events := m.events

/-- `_raw`. -/
def Content.raw? (c : Content) (missionId : String) : Option Payload :=
  match c.stored.get? missionId with
  | some m => some (m.raw.getD m.dump)
  | none => (c.v3.get? missionId).map V3Mission.snapshot

/-! `InMemoryMissionStore.list_missions`. -/

namespace StoredMission
variable (m : StoredMission)

def payload : Payload := m.raw.getD {}

/-- The columns are those of the principal, or null. -/
def passes (workspaceId ownerUserId : String) : Bool :=
  m.payload.workspaceId ∈ [none, some workspaceId] && m.payload.ownerUserId ∈ [none, some ownerUserId]

def listed : Option ListedMission :=
  (maxSeq m.payload.events).map fun lastSeq =>
    { missionId := m.missionId
      query := ((truthy m.payload.query).or (truthy m.finalResponse)).getD ""
      status := (truthy m.payload.status).getD m.status
      route := m.payload.route
      missionLead := (truthy m.payload.missionLead).or m.missionLead
      workspaceId := m.payload.workspaceId
      ownerUserId := m.payload.ownerUserId
      lastSeq }

end StoredMission

/-- The missions from the newest one on that pass, up to the limit. -/
def storePage (c : Content) (limit : Nat) (workspaceId ownerUserId : String) : List StoredMission :=
  (c.stored.rows.reverse.filter fun m => m.passes workspaceId ownerUserId).take (max 1 limit)

def listMissions (c : Content) (limit : Nat) (workspaceId ownerUserId : String) : Option (List ListedMission) :=
  (storePage c limit workspaceId ownerUserId).mapM StoredMission.listed

/-- `sort(key=created_at, reverse=True)` keeps the order of equals. -/
def newestFirst (a b : V3Mission) : Prop := b.createdAt ≤ a.createdAt

instance : DecidableRel newestFirst := fun a b => inferInstanceAs (Decidable (b.createdAt ≤ a.createdAt))
instance : Std.Total newestFirst := ⟨fun a b => le_total b.createdAt a.createdAt⟩
instance : IsTrans V3Mission newestFirst := ⟨fun _ _ _ hab hbc => le_trans hbc hab⟩

def workspaceMissions (c : Content) (workspaceId : String) : List V3Mission :=
  (c.v3.rows.filter fun m => m.workspaceId = workspaceId).insertionSort newestFirst

def listForWorkspace (c : Content) (workspaceId : String) (limit : Nat) : List V3Mission :=
  (workspaceMissions c workspaceId).take limit

/-! `list_office_missions`. -/

/-- The principal of the request and the settings, with Python's `str.lower`. -/
structure Viewer where
  lower : String → String
  principal : Principal
  defaultWorkspaceId : String
  defaultUserId : String

namespace Viewer
variable (v : Viewer)

def canAccessMission (workspaceId ownerUserId : Option String) : Bool :=
  match truthy workspaceId, truthy ownerUserId with
  | some workspaceId, some ownerUserId => v.principal.owns v.lower workspaceId ownerUserId
  | _, _ =>
    v.principal.isInternal v.lower ||
      (v.principal.workspaceId = v.defaultWorkspaceId && v.principal.userId = v.defaultUserId)

def visible (raw : Payload) : Bool := v.canAccessMission raw.workspaceId raw.ownerUserId

/-- One mission of the store's own listing. -/
def addListed (out : List MissionHeader) (m : ListedMission) : List MissionHeader :=
  if !v.canAccessMission m.workspaceId m.ownerUserId then out
  else if m.missionId = "" ∨ m.missionId ∈ out.map MissionHeader.missionId then out
  else out ++ [m.header]

/-- Any exception of the listing leaves it empty. -/
def ownListing (c : Content) (limit : Nat) : List MissionHeader :=
  ((listMissions c limit v.principal.workspaceId v.principal.userId).getD []).foldl v.addListed []

/-- The payload of a mission that is neither unknown nor empty nor hidden. -/
def shown (c : Content) (missionId : String) : Option Payload :=
  (c.raw? missionId).filter fun raw => !raw.isEmpty && v.visible raw

/-- The header of a mission of the registry; one that cannot be made raises. -/
def knownEntry (c : Content) (missionId : String) : Option (Option MissionHeader) :=
  (v.shown c missionId).map fun raw => (maxSeq raw.events).map fun lastSeq =>
    { missionId
      query := (truthy raw.query).getD ""
      status := (truthy raw.status).getD "running"
      route := raw.route
      missionLead := raw.missionLead
      lastSeq }

def v3Entry (c : Content) (m : V3Mission) : Option (Option MissionHeader) :=
  (v.shown c m.missionId).map fun raw => (maxSeq raw.events).map fun lastSeq =>
    { missionId := m.missionId
      query := m.query
      status := m.status
      route := some "v3"
      missionLead := some "coordinator"
      lastSeq }

def workspace : String := (truthy (some v.principal.workspaceId)).getD v.defaultWorkspaceId

def walkKnown (c : Content) (limit : Nat) : List MissionHeader × Bool :=
  collect MissionHeader.missionId id (v.knownEntry c) limit c.known.reverse (v.ownListing c limit)

def walkV3 (c : Content) (limit : Nat) (out : List MissionHeader) : List MissionHeader × Bool :=
  collect MissionHeader.missionId V3Mission.missionId (v.v3Entry c) limit (listForWorkspace c v.workspace limit) out

/-- An exception in the walk over the registry is raised, one in the walk over the V3 page only ends it. -/
def listOfficeMissions (c : Content) (limit : Nat) : Option MissionList :=
  if !v.principal.authenticated || (v.walkKnown c limit).2 then none
  else
    let out := (v.walkV3 c limit (v.walkKnown c limit).1).1
    some { count := out.length, missions := out.take limit }

/-! What the list is to be. -/

def granted (c : Content) (missionId : String) : Bool := (c.raw? missionId).any v.visible

def sees (m : StoredMission) : Bool := v.canAccessMission m.payload.workspaceId m.payload.ownerUserId

/-- The list is returned, each mission of it is visible and stands in it once, and it has as many as the
limit leaves of the store's visible missions. -/
def Exact (c : Content) (limit : Nat) : Prop :=
  ∃ list, v.listOfficeMissions c limit = some list ∧
    (∀ header ∈ list.missions, v.granted c header.missionId = true) ∧
    (list.missions.map MissionHeader.missionId).Nodup ∧
    min (c.stored.rows.countP v.sees) limit ≤ list.missions.length

/-- The two contents have the same visible missions. -/
structure Agree (c c' : Content) : Prop where
  stored : c.stored.rows.filter v.sees = c'.stored.rows.filter v.sees
  known : c.known.filter (v.granted c) = c'.known.filter (v.granted c')
  v3 : c.v3.rows.filter (fun m => v.granted c m.missionId) = c'.v3.rows.filter fun m => v.granted c' m.missionId

def ownPage (c : Content) (limit : Nat) : List StoredMission :=
  (storePage c limit v.principal.workspaceId v.principal.userId).filter v.sees

/-- The missions of the registry for which the page leaves room. -/
def reached (c : Content) (limit : Nat) : List String :=
  (c.known.reverse.filter fun missionId =>
    (v.shown c missionId).isSome && !((v.ownPage c limit).map StoredMission.missionId).contains missionId).take
      (limit - (v.ownPage c limit).length)

/-- What the V3 page may still add: a visible mission that is not in the list by then. -/
def lacking (c : Content) (limit : Nat) (m : V3Mission) : Bool :=
  (v.shown c m.missionId).isSome &&
    !((v.ownPage c limit).map StoredMission.missionId ++ v.reached c limit).contains m.missionId

/-- The places that the store and the registry leave. -/
def room (c : Content) (limit : Nat) : Nat := limit - ((v.ownPage c limit).length + (v.reached c limit).length)

/-- No visible mission is kept off a page that has a place for it, and all sequences that are read are numbers. -/
structure Undisturbed (c : Content) (limit : Nat) : Prop where
  named : ∀ m ∈ v.ownPage c limit, m.missionId ≠ ""
  numbered : ∀ m ∈ storePage c limit v.principal.workspaceId v.principal.userId, (maxSeq m.payload.events).isSome
  stored : v.ownPage c limit = (c.stored.rows.reverse.filter v.sees).take limit
  known : ∀ missionId ∈ v.reached c limit, ∀ raw ∈ c.raw? missionId, (maxSeq raw.events).isSome
  v3 : ((listForWorkspace c v.workspace limit).filter (v.lacking c limit)).take (v.room c limit) =
    ((workspaceMissions c v.workspace).filter (v.lacking c limit)).take (v.room c limit)

variable {v} {c c' : Content} {limit : Nat}

/-! The missions as `_raw` shows them. -/

theorem raw?_of_mem {m : StoredMission} (h : m ∈ c.stored.rows) : c.raw? m.missionId = some (m.raw.getD m.dump) := by
  rw [Content.raw?, Table.get?_of_mem h]

theorem visible_raw (m : StoredMission) : v.visible (m.raw.getD m.dump) = v.sees m := by
  unfold visible sees StoredMission.payload
  cases m.raw <;> rfl

theorem granted_of_mem {m : StoredMission} (h : m ∈ c.stored.rows) : v.granted c m.missionId = v.sees m := by
  rw [granted, raw?_of_mem h, any_some, visible_raw]

theorem granted_of_shown {missionId : String} (h : (v.shown c missionId).isSome) : v.granted c missionId = true := by
  obtain ⟨raw, hraw⟩ := isSome_iff_exists.mp h
  obtain ⟨hraw, hshown⟩ := filter_eq_some_iff.mp hraw
  rw [Bool.and_eq_true] at hshown
  rw [granted, hraw]
  exact hshown.2

/-- What the principal sees in both contents is the same mission. -/
theorem Agree.raw? (h : v.Agree c c') {missionId : String} (hgranted : v.granted c missionId = true) :
    c'.raw? missionId = c.raw? missionId := by
  have hstored (m : StoredMission) : m ∈ c.stored.rows ∧ v.sees m = true ↔ m ∈ c'.stored.rows ∧ v.sees m = true := by
    rw [← mem_filter, h.stored, mem_filter]
  cases hget : c.stored.get? missionId with
  | some m =>
    have hmem := Table.mem_of_get? hget
    have hid : m.missionId = missionId := Table.key_of_get? hget
    rw [← hid, granted_of_mem hmem] at hgranted
    rw [← hid, raw?_of_mem hmem, raw?_of_mem ((hstored m).mp ⟨hmem, hgranted⟩).1]
  | none =>
    cases hv3 : c.v3.get? missionId with
    | none => simp [granted, Content.raw?, hget, hv3] at hgranted
    | some m =>
      have hid : m.missionId = missionId := Table.key_of_get? hv3
      have hmem : m ∈ c'.v3.rows.filter fun m => v.granted c' m.missionId := by
        rw [← h.v3, mem_filter]
        exact ⟨Table.mem_of_get? hv3, by rw [hid, hgranted]⟩
      obtain ⟨hmem, hgranted'⟩ := mem_filter.mp hmem
      have hget' : c'.stored.get? missionId = none := by
        cases hget' : c'.stored.get? missionId with
        | none => rfl
        | some m' =>
          have hmem' := Table.mem_of_get? hget'
          have hid' : m'.missionId = missionId := Table.key_of_get? hget'
          rw [hid, ← hid', granted_of_mem hmem'] at hgranted'
          have := Table.get?_of_mem ((hstored m').mpr ⟨hmem', hgranted'⟩).1
          rw [hid', hget] at this
          cases this
      rw [Content.raw?, Content.raw?, hget, hget', hv3, ← hid, Table.get?_of_mem hmem]

theorem Agree.symm (h : v.Agree c c') : v.Agree c' c := ⟨h.stored.symm, h.known.symm, h.v3.symm⟩

theorem Agree.granted (h : v.Agree c c') {missionId : String} (hgranted : v.granted c missionId = true) :
    v.granted c' missionId = true := by
  rw [Viewer.granted, h.raw? hgranted]
  exact hgranted

theorem Agree.shown (h : v.Agree c c') {missionId : String} (hgranted : v.granted c missionId = true) :
    v.shown c missionId = v.shown c' missionId := by
  rw [Viewer.shown, Viewer.shown, h.raw? hgranted]

/-! The store's own page. -/

def header? (m : StoredMission) : Option MissionHeader := m.listed.map ListedMission.header

theorem header?_missionId {m : StoredMission} {header : MissionHeader} (h : header? m = some header) :
    header.missionId = m.missionId := by
  obtain ⟨listed, hlisted, rfl⟩ := map_eq_some_iff.mp h
  obtain ⟨seq, -, rfl⟩ := map_eq_some_iff.mp hlisted
  rfl

/-- Each mission of a page whose sequences are numbers is added if it is visible. -/
theorem addListed_page (page : List StoredMission) (hnodup : (page.map StoredMission.missionId).Nodup)
    (hnumbered : ∀ m ∈ page, (maxSeq m.payload.events).isSome) (hnamed : ∀ m ∈ page, v.sees m → m.missionId ≠ "") :
    ∀ out : List MissionHeader, (∀ m ∈ page, m.missionId ∉ out.map MissionHeader.missionId) →
      ∃ listing, page.mapM StoredMission.listed = some listing ∧
        listing.foldl v.addListed out = out ++ (page.filter v.sees).filterMap header? := by
  induction page with
  | nil => exact fun out _ => ⟨[], rfl, by simp⟩
  | cons m page ih =>
    intro out hout
    obtain ⟨hm, hnodup⟩ := nodup_cons.mp hnodup
    have ih := ih hnodup (fun m' hm' => hnumbered m' (mem_cons_of_mem m hm'))
      fun m' hm' => hnamed m' (mem_cons_of_mem m hm')
    obtain ⟨seq, hseq⟩ := isSome_iff_exists.mp (hnumbered m mem_cons_self)
    have hlisted : ∃ listed, m.listed = some listed ∧ listed.missionId = m.missionId ∧
        v.canAccessMission listed.workspaceId listed.ownerUserId = v.sees m := by
      rw [StoredMission.listed, hseq]
      exact ⟨_, rfl, rfl, rfl⟩
    obtain ⟨listed, hlisted, hid, hsees⟩ := hlisted
    have hmap {rest : List ListedMission} (hrest : page.mapM StoredMission.listed = some rest) :
        (m :: page).mapM StoredMission.listed = some (listed :: rest) := by
      rw [mapM_cons, hlisted, hrest]
      rfl
    cases hvisible : v.sees m with
    | false =>
      obtain ⟨rest, hrest, hfold⟩ := ih out fun m' hm' => hout m' (mem_cons_of_mem m hm')
      refine ⟨listed :: rest, hmap hrest, ?_⟩
      have hskip : v.addListed out listed = out := by
        simp [addListed, hsees, hvisible]
      rw [foldl_cons, hskip, hfold, filter_cons, if_neg (by simp [hvisible])]
    | true =>
      have hname := hnamed m mem_cons_self hvisible
      have hadd : v.addListed out listed = out ++ [listed.header] := by
        have hnew := hout m mem_cons_self
        rw [← hid] at hname hnew
        simp only [addListed, hsees, hvisible, Bool.not_true, Bool.false_eq_true, if_false]
        rw [if_neg (by simp [hname, hnew])]
      obtain ⟨rest, hrest, hfold⟩ := ih (out ++ [listed.header]) (by
        intro m' hm'
        have hne : m'.missionId ≠ m.missionId := fun heq => hm (heq ▸ List.mem_map_of_mem hm')
        have hold := hout m' (mem_cons_of_mem m hm')
        rw [map_append, mem_append, not_or]
        exact ⟨hold, by simpa [ListedMission.header, hid] using hne⟩)
      refine ⟨listed :: rest, hmap hrest, ?_⟩
      rw [foldl_cons, hadd, hfold, filter_cons, if_pos hvisible, filterMap_cons]
      simp [header?, hlisted]

theorem storePage_nodup (c : Content) (limit : Nat) (workspaceId ownerUserId : String) :
    ((storePage c limit workspaceId ownerUserId).map StoredMission.missionId).Nodup := by
  have hnodup : (c.stored.rows.reverse.map StoredMission.missionId).Nodup := by
    rw [map_reverse, nodup_reverse]
    exact c.stored.nodup
  exact hnodup.sublist (((take_sublist _ _).trans filter_sublist).map _)

theorem knownEntry_missionId (a : String) (header : MissionHeader) (h : v.knownEntry c a = some (some header)) :
    header.missionId = id a := by
  obtain ⟨raw, -, hraw⟩ := map_eq_some_iff.mp h
  obtain ⟨seq, -, rfl⟩ := map_eq_some_iff.mp hraw
  rfl

theorem v3Entry_missionId (a : V3Mission) (header : MissionHeader) (h : v.v3Entry c a = some (some header)) :
    header.missionId = a.missionId := by
  obtain ⟨raw, -, hraw⟩ := map_eq_some_iff.mp h
  obtain ⟨seq, -, rfl⟩ := map_eq_some_iff.mp hraw
  rfl

theorem known_reverse_nodup : (c.known.reverse.map id).Nodup := by
  rw [List.map_id, nodup_reverse]
  exact c.known_nodup

namespace Undisturbed
variable (h : v.Undisturbed c limit)
include h

theorem ownListing_eq : v.ownListing c limit = (v.ownPage c limit).filterMap header? := by
  obtain ⟨listing, hlisting, hfold⟩ := addListed_page (v := v) _ (storePage_nodup c limit _ _) h.numbered
    (fun m hm hsees => h.named m (mem_filter.mpr ⟨hm, hsees⟩)) [] (by simp)
  rw [ownListing, listMissions, hlisting, getD_some, hfold, nil_append]
  rfl

theorem ownListing_ids : (v.ownListing c limit).map MissionHeader.missionId =
    (v.ownPage c limit).map StoredMission.missionId := by
  have hall : ∀ m ∈ v.ownPage c limit, ∃ header, header? m = some header := by
    intro m hm
    obtain ⟨seq, hseq⟩ := isSome_iff_exists.mp (h.numbered m (mem_filter.mp hm).1)
    rw [header?, StoredMission.listed, hseq]
    exact ⟨_, rfl⟩
  rw [h.ownListing_eq]
  generalize v.ownPage c limit = page at hall
  induction page with
  | nil => rfl
  | cons m page ih =>
    obtain ⟨header, hheader⟩ := hall m mem_cons_self
    rw [filterMap_cons, hheader, map_cons, map_cons, header?_missionId hheader,
      ih fun m' hm' => hall m' (mem_cons_of_mem m hm')]

theorem ownListing_length : (v.ownListing c limit).length = min (c.stored.rows.countP v.sees) limit := by
  rw [← length_map MissionHeader.missionId, h.ownListing_ids, length_map, h.stored, length_take,
    ← countP_eq_length_filter, countP_reverse, Nat.min_comm]

theorem ownPage_length : (v.ownPage c limit).length = (v.ownListing c limit).length := by
  rw [← length_map MissionHeader.missionId, h.ownListing_ids, length_map]

theorem wanted_known : wanted MissionHeader.missionId id (v.knownEntry c) limit c.known.reverse (v.ownListing c limit) =
    v.reached c limit := by
  simp only [wanted, reached, knownEntry, isSome_map, h.ownListing_ids, ← h.ownPage_length, id_eq]

/-- No sequence that the registry's walk comes to is malformed. -/
theorem walkKnown_returns : (v.walkKnown c limit).2 = false := by
  rw [walkKnown, collect_raises knownEntry_missionId _ known_reverse_nodup, h.wanted_known]
  intro missionId hmem hentry
  obtain ⟨raw, hshown, hraw⟩ := map_eq_some_iff.mp hentry
  have hsome := h.known missionId hmem raw (filter_eq_some_iff.mp hshown).1
  rw [map_eq_none_iff] at hraw
  rw [hraw] at hsome
  cases hsome

theorem walkKnown_ids : (v.walkKnown c limit).1.map MissionHeader.missionId =
    (v.ownPage c limit).map StoredMission.missionId ++ v.reached c limit := by
  have hkeys := keys_collect knownEntry_missionId _ known_reverse_nodup _ h.walkKnown_returns
  rw [h.wanted_known, h.ownListing_ids, List.map_id] at hkeys
  exact hkeys

theorem wanted_v3 (page : List V3Mission) :
    wanted MissionHeader.missionId V3Mission.missionId (v.v3Entry c) limit page (v.walkKnown c limit).1 =
      (page.filter (v.lacking c limit)).take (v.room c limit) := by
  have hlength := congrArg List.length h.walkKnown_ids
  rw [length_map, length_append, length_map] at hlength
  rw [wanted, h.walkKnown_ids, hlength, room]
  simp only [v3Entry, isSome_map]
  rfl

/-- The walk over the page is one over all missions of the workspace. -/
theorem walkV3_eq : v.walkV3 c limit (v.walkKnown c limit).1 =
    collect MissionHeader.missionId V3Mission.missionId (v.v3Entry c) limit
      (((workspaceMissions c v.workspace).filter (v.lacking c limit)).take (v.room c limit)) (v.walkKnown c limit).1 := by
  have hsorted : ((workspaceMissions c v.workspace).map V3Mission.missionId).Nodup :=
    ((perm_insertionSort newestFirst _).map _).nodup_iff.mpr (c.v3.nodup.sublist (filter_sublist.map _))
  have hpage : ((listForWorkspace c v.workspace limit).map V3Mission.missionId).Nodup :=
    hsorted.sublist ((take_sublist _ _).map _)
  rw [walkV3, collect_wanted v3Entry_missionId _ hpage, h.wanted_v3, h.v3]

end Undisturbed

/-! The three parts together. -/

theorem Undisturbed.exact (h : v.Undisturbed c limit) (hauth : v.principal.authenticated = true) : v.Exact c limit := by
  have hknownGranted (a : String) (header : MissionHeader) (hentry : v.knownEntry c a = some (some header)) :
      v.granted c header.missionId = true := by
    rw [knownEntry_missionId a header hentry]
    exact granted_of_shown (by simpa [knownEntry] using congrArg Option.isSome hentry)
  have hv3Granted (a : V3Mission) (header : MissionHeader) (hentry : v.v3Entry c a = some (some header)) :
      v.granted c header.missionId = true := by
    rw [v3Entry_missionId a header hentry]
    exact granted_of_shown (by simpa [v3Entry] using congrArg Option.isSome hentry)
  obtain ⟨known, hknown, hknownFrom, hknownNodup⟩ :=
    collect_extends limit knownEntry_missionId c.known.reverse (v.ownListing c limit)
  obtain ⟨v3, hv3, hv3From, hv3Nodup⟩ :=
    collect_extends limit v3Entry_missionId (listForWorkspace c v.workspace limit)
      (v.walkKnown c limit).1
  have hout : (v.walkV3 c limit (v.walkKnown c limit).1).1 = v.ownListing c limit ++ known ++ v3 := by
    rw [walkV3, hv3, walkKnown, hknown]
  have hown : ((v.ownListing c limit).map MissionHeader.missionId).Nodup := by
    rw [h.ownListing_ids]
    exact (storePage_nodup c limit _ _).sublist (filter_sublist.map _)
  have hownGranted : ∀ header ∈ v.ownListing c limit, v.granted c header.missionId = true := by
    intro header hheader
    have hid := List.mem_map_of_mem (f := MissionHeader.missionId) hheader
    rw [h.ownListing_ids] at hid
    obtain ⟨m, hm, hid⟩ := List.mem_map.mp hid
    obtain ⟨hm, hsees⟩ := mem_filter.mp hm
    have hstored : m ∈ c.stored.rows := mem_reverse.mp (mem_filter.mp (mem_of_mem_take hm)).1
    rw [← hid, granted_of_mem hstored, hsees]
  have hlist : v.listOfficeMissions c limit = some
      { count := (v.walkV3 c limit (v.walkKnown c limit).1).1.length
        missions := (v.walkV3 c limit (v.walkKnown c limit).1).1.take limit } := by
    simp [listOfficeMissions, hauth, h.walkKnown_returns]
  refine ⟨_, hlist, ?_, ?_, ?_⟩
  · intro header hheader
    rw [hout] at hheader
    obtain hheader | hheader := mem_append.mp (mem_of_mem_take hheader)
    · obtain hheader | hheader := mem_append.mp hheader
      · exact hownGranted header hheader
      · obtain ⟨a, -, hentry⟩ := hknownFrom header hheader
        exact hknownGranted a header hentry
    · obtain ⟨a, -, hentry⟩ := hv3From header hheader
      exact hv3Granted a header hentry
  · refine List.Nodup.sublist ((take_sublist limit _).map _) ?_
    rw [walkV3, hv3]
    refine hv3Nodup ?_
    rw [walkKnown, hknown]
    exact hknownNodup hown
  · rw [length_take, hout, length_append, length_append, h.ownListing_length]
    omega

theorem Undisturbed.list_eq (h : v.Undisturbed c limit) (h' : v.Undisturbed c' limit) (hagree : v.Agree c c') :
    v.listOfficeMissions c limit = v.listOfficeMissions c' limit := by
  have hown : v.ownListing c limit = v.ownListing c' limit := by
    rw [h.ownListing_eq, h'.ownListing_eq, h.stored, h'.stored, filter_reverse, filter_reverse, hagree.stored]
  have hknown : v.walkKnown c limit = v.walkKnown c' limit := by
    rw [walkKnown, walkKnown, hown]
    refine collect_agree (v.granted c) (v.granted c') ?_ ?_ ?_ ?_ _
    · exact fun a _ hentry => granted_of_shown (by simpa [knownEntry] using hentry)
    · exact fun a _ hentry => granted_of_shown (by simpa [knownEntry] using hentry)
    · rw [filter_reverse, filter_reverse, hagree.known]
    · intro a ha
      rw [knownEntry, knownEntry, hagree.shown (mem_filter.mp ha).2]
  have hids : (v.ownPage c limit).map StoredMission.missionId ++ v.reached c limit =
      (v.ownPage c' limit).map StoredMission.missionId ++ v.reached c' limit := by
    rw [← h.walkKnown_ids, ← h'.walkKnown_ids, hknown]
  have hroom : v.room c limit = v.room c' limit := by
    have hlength := congrArg List.length hids
    rw [length_append, length_append, length_map, length_map] at hlength
    rw [room, room, hlength]
  have hsorted : ∀ c : Content, (workspaceMissions c v.workspace).filter (fun m => v.granted c m.missionId) =
      ((c.v3.rows.filter fun m => v.granted c m.missionId).filter fun m => m.workspaceId = v.workspace).insertionSort
        newestFirst := by
    intro c
    rw [workspaceMissions, filter_insertionSort, List.filter_filter, List.filter_filter]
    simp only [Bool.and_comm]
  -- what is lacking is visible, and what is visible is the same in both
  have hlacking : ∀ c : Content, (workspaceMissions c v.workspace).filter (v.lacking c limit) =
      ((workspaceMissions c v.workspace).filter fun m => v.granted c m.missionId).filter (v.lacking c limit) := by
    intro c
    rw [List.filter_filter]
    refine filter_congr fun m _ => ?_
    cases hm : v.lacking c limit m with
    | false => rfl
    | true => simp [granted_of_shown (Bool.and_eq_true_iff.mp hm).1]
  have hpage : ((workspaceMissions c v.workspace).filter (v.lacking c limit)).take (v.room c limit) =
      ((workspaceMissions c' v.workspace).filter (v.lacking c' limit)).take (v.room c' limit) := by
    rw [hlacking c, hlacking c', hsorted, hsorted, ← hagree.v3, hroom]
    congr 1
    refine filter_congr fun m hm => ?_
    obtain ⟨hm, -⟩ := mem_filter.mp ((mem_insertionSort newestFirst).mp hm)
    rw [lacking, lacking, hagree.shown (mem_filter.mp hm).2, hids]
  have hv3 : v.walkV3 c limit (v.walkKnown c limit).1 = v.walkV3 c' limit (v.walkKnown c' limit).1 := by
    rw [h.walkV3_eq, h'.walkV3_eq, hknown, ← hpage]
    refine collect_congr _ (fun m hm => ?_) _
    obtain ⟨-, hm⟩ := mem_filter.mp (mem_of_mem_take hm)
    rw [v3Entry, v3Entry, hagree.shown (granted_of_shown (Bool.and_eq_true_iff.mp hm).1)]
  rw [hknown] at hv3
  rw [listOfficeMissions, listOfficeMissions, hknown, hv3]

/-- Where nothing disturbs the pages, the list is exact, and the same for all contents with the same
visible missions. -/
theorem office_missions_exact (hauth : v.principal.authenticated = true) (h : v.Undisturbed c limit) :
    v.Exact c limit ∧ ∀ c', v.Undisturbed c' limit → v.Agree c c' →
      v.listOfficeMissions c limit = v.listOfficeMissions c' limit :=
  ⟨h.exact hauth, fun _ h' hagree => h.list_eq h' hagree⟩

def reader : Viewer where
  lower := fun s => s
  principal := { principalId := "p", workspaceId := "w", userId := "u", authenticated := true }
  defaultWorkspaceId := "default"
  defaultUserId := "default"

def ownMission : StoredMission where
  missionId := "m1"
  status := "completed"
  raw := some { workspaceId := some "w", ownerUserId := some "u", events := [{ seq := .number 4 }] }

/-- One mission of the reader in each store, beside missions of somebody else. -/
def sharedContent : Content where
  stored := (Table.empty.put ownMission).put
    { missionId := "m2", status := "running", raw := some { workspaceId := some "w", ownerUserId := some "o" } }
  known := ["m1", "m2"]
  v3 := (Table.empty.put { missionId := "m3", query := "q", workspaceId := "w", ownerUserId := "u", createdAt := 1 }).put
    { missionId := "m4", query := "q", workspaceId := "w", ownerUserId := "o", createdAt := 2 }

theorem office_missions_exact_sharedContent : reader.Exact sharedContent 5 ∧ reader.Exact sharedContent 1 ∧
    (reader.listOfficeMissions sharedContent 5).map (·.count) = some 2 := by
  have hundisturbed : reader.Undisturbed sharedContent 5 :=
    ⟨by decide, by decide, by decide, by decide, by decide⟩
  -- one mission fills the list, whatever the V3 page shows
  have hfull : reader.Undisturbed sharedContent 1 :=
    ⟨by decide, by decide, by decide, by decide, by decide⟩
  exact ⟨(office_missions_exact rfl hundisturbed).1, (office_missions_exact rfl hfull).1, by decide⟩

def ownContent : Content where
  stored := Table.empty.put ownMission

/-- A newer mission without an owner, which only the default user may see. -/
def pushedContent : Content where
  stored := (Table.empty.put ownMission).put { missionId := "m2", status := "running" }

def malformedContent : Content where
  stored := Table.empty.put
    { ownMission with raw := some { workspaceId := some "w", ownerUserId := some "u", events := [{ seq := .malformed }] } }
  known := ["m1"]

theorem office_missions_disturbed :
    ¬reader.Exact malformedContent 5 ∧ reader.Agree ownContent pushedContent ∧
      reader.listOfficeMissions ownContent 1 ≠ reader.listOfficeMissions pushedContent 1 ∧
      ¬reader.Exact pushedContent 1 := by
  refine ⟨?_, ⟨by decide, by decide, by decide⟩, by decide, ?_⟩
  · rintro ⟨list, hlist, -⟩
    have hnone : reader.listOfficeMissions malformedContent 5 = none := by decide
    rw [hnone] at hlist
    cases hlist
  · rintro ⟨list, hlist, -, -, hlength⟩
    have hempty : reader.listOfficeMissions pushedContent 1 = some ⟨0, []⟩ := by decide
    rw [hempty] at hlist
    obtain rfl := Option.some.inj hlist
    revert hlength
    decide

end Viewer
end SelericSwarm.OfficeMissions
