import SelericSwarm.DomainHealth

/-! What the snapshots of a history of runs say. -/
open List Option

namespace SelericSwarm.DomainHealth
open Keyed

/-- One domain's turn in a call. -/
structure Visit where
  call : Call
  domain : String
  profile : DomainProfile
  directory : String

namespace Visit
variable (v : Visit) (store : SnapshotStore)

def path : String × Date := (v.directory, v.call.asOf)

def snapshot : DomainStateSnapshot := resolve v.call v.domain v.profile (store.getLatest v.directory)

def stored : SnapshotStore := store.save v.directory (v.snapshot store)

end Visit

section Histories
variable (profiles : String → Option DomainProfile)

/-- The turns of a call, up to a domain at which it raises. -/
def visitsOf (call : Call) : List String → List Visit
  | [] => []
  | domain :: domains =>
    match known profiles domain with
    | none => []
    | some (profile, directory) => { call, domain, profile, directory } :: visitsOf call domains

def visits (calls : List Call) : List Visit := calls.flatMap fun call => visitsOf profiles call call.domains

def after (vs : List Visit) : SnapshotStore := vs.foldl (fun store v => v.stored store) Table.empty

theorem runDomains_eq (call : Call) (domains : List String) : ∀ store : SnapshotStore,
    runDomains profiles call store domains = (visitsOf profiles call domains).foldl (fun store v => v.stored store) store := by
  induction domains with
  | nil => exact fun _ => rfl
  | cons domain domains ih =>
    intro store
    rw [runDomains, visitsOf]
    cases known profiles domain with
    | none => rfl
    | some place =>
      obtain ⟨profile, directory⟩ := place
      exact ih _

theorem runs_eq (calls : List Call) : calls.foldl (runOnce profiles) Table.empty = after (visits profiles calls) := by
  have hfold : ∀ store : SnapshotStore, calls.foldl (runOnce profiles) store =
      (visits profiles calls).foldl (fun store v => v.stored store) store := by
    induction calls with
    | nil => exact fun _ => rfl
    | cons call calls ih =>
      intro store
      rw [foldl_cons, ih, runOnce, runDomains_eq, visits, visits, flatMap_cons, foldl_append]
  exact hfold Table.empty

theorem known_of_mem {call : Call} {domains : List String} {v : Visit} (h : v ∈ visitsOf profiles call domains) :
    known profiles v.domain = some (v.profile, v.directory) ∧ v.call = call := by
  induction domains with
  | nil => cases h
  | cons domain domains ih =>
    rw [visitsOf] at h
    cases hknown : known profiles domain with
    | none =>
      rw [hknown] at h
      cases h
    | some place =>
      rw [hknown] at h
      obtain rfl | hmem := mem_cons.mp h
      · exact ⟨hknown, rfl⟩
      · exact ih hmem

end Histories

def Newest (s : DomainStateSnapshot) (snapshots : List DomainStateSnapshot) : Prop :=
  s ∈ snapshots ∧ ∀ t ∈ snapshots, t.asOf.toordinal ≤ s.asOf.toordinal

/-- What a turn writes, and what it leaves alone. -/
structure TurnLaws (v : Visit) (store : SnapshotStore) : Prop where
  compared : ∀ i entry, v.profile.metrics[i]? = some entry → entry.windowedPoint = true →
    ∃ m, (v.snapshot store).metrics[i]? = some m ∧ m.metricId = entry.metricId ∧ m.value = (v.call.state v.domain i).actual ∧
      ((store.snapshotsOf v.directory = [] ∧ m.periodDeltaPct = none) ∨
        ∃ s, Newest s (store.snapshotsOf v.directory) ∧
          m.periodDeltaPct = windowedPointDeltaPct m.value ((metricOf s.metrics m.metricId).bind ResolvedMetric.value))
  written : (v.stored store).get? v.path =
    some { directory := v.directory, asOf := v.call.asOf, snapshot := v.snapshot store }
  others : ∀ path, path ≠ v.path → (v.stored store).get? path = store.get? path
  latest : ∀ directory, directory ≠ v.directory → (v.stored store).getLatest directory = store.getLatest directory
  unavailable : (v.snapshot store).status = .unavailable ↔
    ∃ i < v.profile.metrics.length, (v.call.state v.domain i).status = .unavailable
  degraded : (v.snapshot store).status = .degraded ↔
    (∀ i < v.profile.metrics.length, (v.call.state v.domain i).status ≠ .unavailable) ∧
      ∃ i < v.profile.metrics.length, (v.call.state v.domain i).status = .partially

/-- The same date, brand and domain, with unchanged states. -/
structure Visit.Again (w v : Visit) : Prop where
  domain : w.domain = v.domain
  profile : w.profile = v.profile
  directory : w.directory = v.directory
  asOf : w.call.asOf = v.call.asOf
  brandId : w.call.brandId = v.call.brandId
  state : ∀ i < v.profile.metrics.length, w.call.state v.domain i = v.call.state v.domain i

/-- What a repeated turn leaves of the stored snapshot. -/
structure RerunLaws (w : Visit) (store : SnapshotStore) (old : DomainStateSnapshot) : Prop where
  stored : (store.get? w.path).map StoredFile.snapshot = some old
  values : (w.snapshot store).metrics.map ResolvedMetric.value = old.metrics.map ResolvedMetric.value
  deltas : ∀ (i : Nat) (entry : ProfileMetric), w.profile.metrics[i]? = some entry → entry.windowedPoint = false →
    (w.snapshot store).metrics[i]? = old.metrics[i]?
  signals : (∀ entry ∈ w.profile.metrics, entry.windowedPoint = false) →
    (w.snapshot store).metrics = old.metrics ∧ (w.snapshot store).headlineSignals = old.headlineSignals
  status : (w.snapshot store).status = old.status

/-- Over every history of runs on one store. -/
structure SnapshotLaws (profiles : String → Option DomainProfile) (calls : List Call) : Prop where
  filed : ∀ f ∈ (calls.foldl (runOnce profiles) Table.empty).rows,
    safePathSegment f.snapshot.domain = some f.directory ∧ f.snapshot.asOf = f.asOf
  turns : ∀ before v rest, visits profiles calls = before ++ v :: rest → TurnLaws v (after before)
  reruns : ∀ before v rest, visits profiles calls = before ++ v :: rest → (∀ u ∈ rest, u.path ≠ v.path) →
    ∀ w : Visit, w.Again v → RerunLaws w (calls.foldl (runOnce profiles) Table.empty) (v.snapshot (after before))

/-! The newest snapshot. -/

section Newests
variable {snapshots : List DomainStateSnapshot} {s : DomainStateSnapshot}

theorem foldl_newer : ∀ best : Option DomainStateSnapshot,
    (snapshots.foldl SnapshotStore.newer best = none ↔ best = none ∧ snapshots = []) ∧
      ∀ s, snapshots.foldl SnapshotStore.newer best = some s →
        (some s = best ∨ s ∈ snapshots) ∧ (∀ b ∈ best, b.asOf.toordinal ≤ s.asOf.toordinal) ∧
          ∀ t ∈ snapshots, t.asOf.toordinal ≤ s.asOf.toordinal := by
  induction snapshots with
  | nil =>
    intro best
    refine ⟨by simp, fun s hs => ⟨Or.inl hs.symm, fun b hb => ?_, fun t ht => absurd ht not_mem_nil⟩⟩
    rw [foldl_nil] at hs
    rw [Option.some.inj (hb.symm.trans hs)]
  | cons u snapshots ih =>
    intro best
    rw [foldl_cons]
    obtain ⟨hnone, hsome⟩ := ih (SnapshotStore.newer best u)
    cases best with
    | none =>
      have hnew : SnapshotStore.newer none u = some u := rfl
      rw [hnew] at hnone hsome ⊢
      refine ⟨by simp [hnone], fun s hs => ?_⟩
      obtain ⟨hmem, hbest, hall⟩ := hsome s hs
      have hu : u.asOf.toordinal ≤ s.asOf.toordinal := hbest u rfl
      refine ⟨Or.inr ?_, by simp, forall_mem_cons.mpr ⟨hu, hall⟩⟩
      obtain hself | hmem := hmem
      · rw [Option.some.inj hself]
        exact mem_cons_self
      · exact mem_cons_of_mem u hmem
    | some b =>
      have hnew : SnapshotStore.newer (some b) u = some u ∧ b.asOf.toordinal < u.asOf.toordinal ∨
          SnapshotStore.newer (some b) u = some b ∧ u.asOf.toordinal ≤ b.asOf.toordinal := by
        unfold SnapshotStore.newer
        dsimp only
        split
        · exact Or.inl ⟨rfl, ‹_›⟩
        · exact Or.inr ⟨rfl, not_lt.mp ‹_›⟩
      obtain ⟨hnew, horder⟩ | ⟨hnew, horder⟩ := hnew
      · rw [hnew] at hnone hsome ⊢
        refine ⟨by simp [hnone], fun s hs => ?_⟩
        obtain ⟨hmem, hbest, hall⟩ := hsome s hs
        have hu : u.asOf.toordinal ≤ s.asOf.toordinal := hbest u rfl
        refine ⟨Or.inr ?_, fun b' hb' => ?_, forall_mem_cons.mpr ⟨hu, hall⟩⟩
        · obtain hself | hmem := hmem
          · rw [Option.some.inj hself]
            exact mem_cons_self
          · exact mem_cons_of_mem u hmem
        · rw [← Option.some.inj hb']
          exact horder.le.trans hu
      · rw [hnew] at hnone hsome ⊢
        refine ⟨by simp [hnone], fun s hs => ?_⟩
        obtain ⟨hmem, hbest, hall⟩ := hsome s hs
        have hb : b.asOf.toordinal ≤ s.asOf.toordinal := hbest b rfl
        refine ⟨hmem.imp_right (mem_cons_of_mem u), hbest, forall_mem_cons.mpr ⟨horder.trans hb, hall⟩⟩

theorem newest_none : SnapshotStore.newest snapshots = none ↔ snapshots = [] := by
  rw [SnapshotStore.newest, (foldl_newer none).1]
  simp

theorem newest_some (h : SnapshotStore.newest snapshots = some s) : Newest s snapshots := by
  obtain ⟨hmem, -, hall⟩ := (foldl_newer none).2 s h
  exact ⟨hmem.resolve_left (some_ne_none s), hall⟩

end Newests

/-! The status of the domain. -/

section Status
variable {l : List (ProfileMetric × MetricState)}

theorem foldl_rollUp : ∀ st : DomainStatus,
    (l.foldl (fun st p => rollUp st p.2) st = .unavailable ↔
      st = .unavailable ∨ ∃ p ∈ l, p.2.status = .unavailable) ∧
    (l.foldl (fun st p => rollUp st p.2) st = .degraded ↔
      (st ≠ .unavailable ∧ ∀ p ∈ l, p.2.status ≠ .unavailable) ∧
        (st = .degraded ∨ ∃ p ∈ l, p.2.status = .partially)) := by
  induction l with
  | nil =>
    intro st
    cases st <;> simp
  | cons p l ih =>
    intro st
    obtain ⟨hunavailable, hdegraded⟩ := ih (rollUp st p.2)
    rw [foldl_cons, hunavailable, hdegraded]
    cases hp : p.2.status with
    | ok =>
      have hsame : rollUp st p.2 = st := by simp [rollUp, hp]
      rw [hsame]
      simp [hp]
    | partially =>
      cases st with
      | ok =>
        have hrolled : rollUp .ok p.2 = .degraded := by simp [rollUp, hp]
        rw [hrolled]
        simp [hp]
      | degraded =>
        have hrolled : rollUp .degraded p.2 = .degraded := by simp [rollUp, hp]
        rw [hrolled]
        simp [hp]
      | unavailable =>
        have hrolled : rollUp .unavailable p.2 = .unavailable := by simp [rollUp, hp]
        rw [hrolled]
        simp
    | unavailable =>
      have hrolled : rollUp st p.2 = .unavailable := by simp [rollUp, hp]
      rw [hrolled]
      simp [hp]

theorem exists_states {call : Call} {domain : String} {profile : DomainProfile} {P : MetricState → Prop} :
    (∃ p ∈ call.states domain profile, P p.2) ↔ ∃ i < profile.metrics.length, P (call.state domain i) := by
  constructor
  · rintro ⟨p, hmem, hp⟩
    obtain ⟨i, hi, rfl⟩ := mem_mapIdx.mp hmem
    exact ⟨i, hi, hp⟩
  · rintro ⟨i, hi, hp⟩
    exact ⟨_, mem_mapIdx.mpr ⟨i, hi, rfl⟩, hp⟩

theorem forall_states {call : Call} {domain : String} {profile : DomainProfile} {P : MetricState → Prop} :
    (∀ p ∈ call.states domain profile, P p.2) ↔ ∀ i < profile.metrics.length, P (call.state domain i) := by
  constructor
  · intro h i hi
    exact h _ (mem_mapIdx.mpr ⟨i, hi, rfl⟩)
  · intro h p hmem
    obtain ⟨i, hi, rfl⟩ := mem_mapIdx.mp hmem
    exact h i hi

end Status

/-! One turn. -/

section Turns
variable (v : Visit) (store : SnapshotStore)

/-- The metrics that stood in the latest snapshot. -/
def Visit.previous : List ResolvedMetric :=
  ((store.getLatest v.directory).map DomainStateSnapshot.metrics).getD []

theorem snapshot_metrics (i : Nat) : (v.snapshot store).metrics[i]? =
    v.profile.metrics[i]?.map fun entry => resolveMetric (v.previous store) entry (v.call.state v.domain i) := by
  have hmetrics : (v.snapshot store).metrics = (v.call.states v.domain v.profile).map fun p =>
    resolveMetric (v.previous store) p.1 p.2 := rfl
  rw [hmetrics, List.getElem?_map, Call.states, List.getElem?_mapIdx, Option.map_map]
  rfl

theorem stored_get? (path : String × Date) : (v.stored store).get? path =
    if path = v.path then some { directory := v.directory, asOf := v.call.asOf, snapshot := v.snapshot store }
    else store.get? path := by
  split
  · rename_i hpath
    rw [hpath]
    exact Table.get?_put_self _ _
  · rename_i hpath
    exact Table.get?_put_of_ne _ fun heq => hpath heq.symm

theorem stored_snapshotsOf {directory : String} (hne : directory ≠ v.directory) :
    (v.stored store).snapshotsOf directory = store.snapshotsOf directory := by
  let f : StoredFile := { directory := v.directory, asOf := v.call.asOf, snapshot := v.snapshot store }
  have hf : ¬f.directory = directory := fun heq => hne heq.symm
  have hrows : (store.put f).rows.filter (fun g => g.directory = directory) =
      store.rows.filter fun g => g.directory = directory := by
    cases hget : store.get? f.path with
    | none =>
      rw [Table.filter_put_new _ hget, if_neg (by simpa using hf), append_nil]
    | some old =>
      have hold : old.directory = f.directory := congrArg Prod.fst (Table.key_of_get? hget)
      rw [Table.filter_put _ hget (by simp [hold]), Table.replace_of_not_mem]
      intro g hg heq
      have hdirectory : g.directory = f.directory := congrArg Prod.fst heq
      exact hf (hdirectory.symm.trans (of_decide_eq_true (mem_filter.mp hg).2))
  exact congrArg (List.map StoredFile.snapshot) hrows

theorem windowedPointDeltaPct_none (current : Option ℚ) : windowedPointDeltaPct current none = none := by
  cases current <;> rfl

theorem turn_laws : TurnLaws v store where
  compared := by
    intro i entry hentry hwindowed
    refine ⟨_, by rw [snapshot_metrics, hentry, map_some], rfl, rfl, ?_⟩
    cases hlatest : store.getLatest v.directory with
    | none =>
      refine Or.inl ⟨newest_none.mp hlatest, ?_⟩
      have hprevious : v.previous store = [] := by rw [Visit.previous, hlatest]; rfl
      simp only [resolveMetric, hwindowed, if_true, hprevious]
      exact windowedPointDeltaPct_none _
    | some s =>
      refine Or.inr ⟨s, newest_some hlatest, ?_⟩
      have hprevious : v.previous store = s.metrics := by rw [Visit.previous, hlatest]; rfl
      simp only [resolveMetric, hwindowed, if_true, hprevious]
  written := by rw [stored_get?, if_pos rfl]
  others := fun path hpath => by rw [stored_get?, if_neg hpath]
  latest := fun directory hne => by
    rw [SnapshotStore.getLatest, SnapshotStore.getLatest, stored_snapshotsOf v store hne]
  unavailable := by
    have hstatus := (foldl_rollUp (l := v.call.states v.domain v.profile) .ok).1
    refine hstatus.trans ?_
    rw [exists_states (P := fun state => state.status = .unavailable)]
    simp
  degraded := by
    have hstatus := (foldl_rollUp (l := v.call.states v.domain v.profile) .ok).2
    refine hstatus.trans ?_
    rw [exists_states (P := fun state => state.status = .partially),
      forall_states (P := fun state => state.status ≠ .unavailable)]
    simp

end Turns

/-! Histories. -/

section Reruns
variable {v w : Visit}

theorem again_states (h : w.Again v) : w.call.states w.domain w.profile = v.call.states v.domain v.profile := by
  rw [Call.states, Call.states, h.domain, h.profile]
  refine ext_getElem? fun i => ?_
  rw [List.getElem?_mapIdx, List.getElem?_mapIdx]
  by_cases hi : i < v.profile.metrics.length
  · rw [h.state i hi]
  · rw [List.getElem?_eq_none (not_lt.mp hi)]
    rfl

theorem resolveMetric_series {entry : ProfileMetric} (h : entry.windowedPoint = false) (before before' : List ResolvedMetric)
    (state : MetricState) : resolveMetric before entry state = resolveMetric before' entry state := by
  simp [resolveMetric, h]

theorem snapshot_again (h : w.Again v) (store : SnapshotStore) (i : Nat) : (w.snapshot store).metrics[i]? =
    v.profile.metrics[i]?.map fun entry => resolveMetric (w.previous store) entry (v.call.state v.domain i) := by
  rw [snapshot_metrics, h.profile, h.domain]
  cases hentry : v.profile.metrics[i]? with
  | none => rfl
  | some entry =>
    obtain ⟨hi, -⟩ := List.getElem?_eq_some_iff.mp hentry
    rw [map_some, map_some, h.state i hi]

theorem rerun_laws (h : w.Again v) {store before : SnapshotStore}
    (hstored : (store.get? v.path).map StoredFile.snapshot = some (v.snapshot before)) :
    RerunLaws w store (v.snapshot before) where
  stored := by
    have hpath : w.path = v.path := by rw [Visit.path, Visit.path, h.directory, h.asOf]
    rw [hpath, hstored]
  values := by
    refine ext_getElem? fun i => ?_
    rw [List.getElem?_map, List.getElem?_map, snapshot_again h store, snapshot_metrics, Option.map_map, Option.map_map]
    rfl
  deltas := by
    intro i entry hentry hseries
    rw [h.profile] at hentry
    rw [snapshot_again h store, snapshot_metrics, hentry, map_some, map_some,
      resolveMetric_series hseries]
  signals := by
    intro hall
    have hmetrics : (w.snapshot store).metrics = (v.snapshot before).metrics := by
      refine ext_getElem? fun i => ?_
      rw [snapshot_again h store, snapshot_metrics]
      cases hentry : v.profile.metrics[i]? with
      | none => rfl
      | some entry =>
        have hmem := mem_of_getElem? hentry
        rw [← h.profile] at hmem
        rw [map_some, map_some, resolveMetric_series (hall entry hmem)]
    have hsignals : ∀ (u : Visit) (s : SnapshotStore),
        (u.snapshot s).headlineSignals = headlineSignals u.profile.healthSignals (u.snapshot s).metrics := fun _ _ => rfl
    refine ⟨hmetrics, ?_⟩
    rw [hsignals, hsignals, hmetrics, h.profile]
  status := by
    have hstatus : ∀ (u : Visit) (s : SnapshotStore), (u.snapshot s).status =
        (u.call.states u.domain u.profile).foldl (fun st p => rollUp st p.2) .ok := fun _ _ => rfl
    rw [hstatus, hstatus, again_states h]

/-- A file stays until a turn for its directory and date. -/
theorem foldl_stored_get? {path : String × Date} (vs : List Visit) (h : ∀ u ∈ vs, u.path ≠ path) :
    ∀ store : SnapshotStore, (vs.foldl (fun store v => v.stored store) store).get? path = store.get? path := by
  induction vs with
  | nil => exact fun _ => rfl
  | cons u vs ih =>
    intro store
    rw [foldl_cons, ih (fun u' hu' => h u' (mem_cons_of_mem u hu')), stored_get?,
      if_neg fun heq => h u mem_cons_self heq.symm]

end Reruns

section Filed
variable (profiles : String → Option DomainProfile)

theorem known_directory {domain directory : String} {profile : DomainProfile}
    (h : known profiles domain = some (profile, directory)) : safePathSegment domain = some directory := by
  unfold known at h
  split at h
  · rename_i hsegment
    rw [hsegment, (Prod.mk.inj (Option.some.inj h)).2]
  · cases h

theorem mem_visits {calls : List Call} {v : Visit} (h : v ∈ visits profiles calls) :
    safePathSegment v.domain = some v.directory := by
  obtain ⟨call, -, hmem⟩ := mem_flatMap.mp h
  exact known_directory profiles (known_of_mem profiles hmem).1

theorem filed_foldl {vs : List Visit} (h : ∀ v ∈ vs, safePathSegment v.domain = some v.directory) :
    ∀ store : SnapshotStore,
      (∀ f ∈ store.rows, safePathSegment f.snapshot.domain = some f.directory ∧ f.snapshot.asOf = f.asOf) →
        ∀ f ∈ (vs.foldl (fun store v => v.stored store) store).rows,
          safePathSegment f.snapshot.domain = some f.directory ∧ f.snapshot.asOf = f.asOf := by
  induction vs with
  | nil => exact fun _ hstore => hstore
  | cons v vs ih =>
    intro store hstore
    refine ih (fun u hu => h u (mem_cons_of_mem v hu)) (v.stored store) fun f hf => ?_
    obtain rfl | hold := Table.mem_put hf
    · exact ⟨h v mem_cons_self, rfl⟩
    · exact hstore f hold

end Filed

/-- Snapshots of one store over any history: what each turn writes and leaves, and what a repeated turn leaves. -/
theorem snapshot_laws (profiles : String → Option DomainProfile) (calls : List Call) : SnapshotLaws profiles calls where
  filed := by
    rw [runs_eq]
    exact filed_foldl (fun v hv => mem_visits profiles hv) Table.empty fun f hf => absurd hf not_mem_nil
  turns := fun before v _ _ => turn_laws v (after before)
  reruns := by
    intro before v rest hvisits hrest w hagain
    refine rerun_laws hagain ?_
    rw [runs_eq, hvisits, after, foldl_append, foldl_cons, foldl_stored_get? rest hrest, stored_get?,
      if_pos rfl]
    rfl

/-- The run is repeated with the same state, and another brand's run follows on the same date. -/
theorem snapshot_reruns :
    let customer : DomainProfile := { metrics := [{ metricId := "metric.repeat_rate", windowedPoint := true }] }
    let profiles (domain : String) : Option DomainProfile := if domain = "customer" then some customer else none
    let call (brandId : String) : Call :=
      { domains := ["customer"], brandId, asOf := ⟨2026, 9, 7, by decide, by decide, by decide⟩
        state := fun _ _ => { actual := some 22, status := .ok } }
    let deltas (calls : List Call) : List (String × List (Option ℚ)) :=
      (calls.foldl (runOnce profiles) Table.empty).rows.map fun f =>
        (f.snapshot.brandId, f.snapshot.metrics.map ResolvedMetric.periodDeltaPct)
    deltas [call "20"] = [("20", [none])] ∧ deltas [call "20", call "20"] = [("20", [some 0])] ∧
      deltas [call "20", call "26"] = [("26", [some 0])] := by
  decide +kernel

end SelericSwarm.DomainHealth
