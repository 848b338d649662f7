import SelericSwarm.ComparisonSymmetry
import SelericSwarm.ExperimentLift

/-! When an experiment is evaluated by comparing like with like. -/
namespace SelericSwarm.Analytics.Experiments
open Keyed List Option
variable {py : Runtime} {deps : Agent.SelericDeps} {store : ArtifactStore} {e : Experiment} {ids : List String}
  {read : List Reading} {label : String}

def labelUnder (dimension : String) (e : EvidenceArtifact) : List String := (e.dimensions.get? dimension).toList

/-- The same period, and the same values of all other dimensions. -/
def Alike (dimension : String) (r r' : Reading) : Prop :=
  r.2.periodStart = r'.2.periodStart ∧ r.2.periodEnd = r'.2.periodEnd ∧
    ∀ d, d ≠ dimension → r.2.dimensions.get? d = r'.2.dimensions.get? d

/-- A finding that compares like with like. -/
def Sourced (e : Experiment) (dimension : String) (read : List Reading) (variant : Variant) (f : Finding) : Prop :=
  ∃ control c v cv vv, e.control = some control ∧ c ∈ read ∧ v ∈ read ∧ c.2.value = some cv ∧ v.2.value = some vv ∧
    c.2.metricId = e.metricId ∧ v.2.metricId = e.metricId ∧ c.2.dimensions.get? dimension = some control.label ∧
    v.2.dimensions.get? dimension = some variant.label ∧ Alike dimension c v ∧ f = evaluation e (c.1, cv) variant (v.1, vv)

/-- The findings compare like with like, in any order of the ids, and whatever stands under other dimensions. -/
structure Fair (py : Runtime) (store : ArtifactStore) (e : Experiment) (ids : List String) (dimension : String) : Prop where
  sources : ∀ variant f, (variant, f) ∈ findingsBy py allLabels store e ids →
    Sourced e dimension (readings py store ids) variant f
  order : ∀ ids', ids.Perm ids' → findingsBy py allLabels store e ids' = findingsBy py allLabels store e ids
  unrelated : findingsBy py (labelUnder dimension) store e ids = findingsBy py allLabels store e ids
  swapped : ∀ name a b, (PercentSigns.lift name a b).absolute = -(PercentSigns.lift name b a).absolute

/-- A reading with a value, and with the label under some dimension. -/
def Stamped (label : String) (r : Reading) : Prop := r.2.value.isSome ∧ label ∈ allLabels r.2

/-- Where there is something to evaluate, each label is on one artifact only, of the experiment's metric, under one
dimension, and like the control's in all else. -/
def Comparable (py : Runtime) (store : ArtifactStore) (e : Experiment) (ids : List String) : Prop :=
  ∀ control read, e.control = some control → loadStamped py store ids = .ok read →
    (∃ r ∈ read, Stamped control.label r) → (∃ variant ∈ e.treatments, ∃ r ∈ read, Stamped variant.label r) →
      ∃ dimension, ∀ label ∈ control.label :: e.treatments.map Variant.label, ∀ r ∈ read, Stamped label r →
        r.2.metricId = e.metricId ∧ r.2.dimensions.get? dimension = some label ∧
          (∀ r' ∈ read, Stamped label r' → r'.1 = r.1) ∧ ∀ c ∈ read, Stamped control.label c → Alike dimension c r

/-! What is written. -/

theorem putEvaluations_new {id : String} {a : Artifact} (findings : List Finding) : ∀ desk : Desk,
    (putEvaluations py deps findings desk).2.artifacts.get? id = some a →
      desk.artifacts.get? id = some a ∨ ∃ f ∈ findings, a.payload = .finding f := by
  induction findings with
  | nil => exact fun _ h => Or.inl h
  | cons f findings ih =>
    intro desk h
    rw [putEvaluations] at h
    dsimp only at h
    split at h
    · exact Or.inl h
    · next put hput =>
      have hnext : put.get? id = some a ∨ ∃ g ∈ findings, a.payload = .finding g := by
        apply ih { artifacts := put, issued := desk.issued + 1 }
        split at h
        · next hrest =>
          rw [hrest]
          exact h
        · next hrest =>
          rw [hrest]
          exact h
      obtain hfound | ⟨g, hg, hpayload⟩ := hnext
      · unfold ArtifactStore.put at hput
        split at hput
        · next stored hfree hkept =>
          cases hput
          obtain ⟨-, hpayload⟩ := Artifact.requireProvenance_kept hkept
          rw [Table.get?_put] at hfound
          split at hfound
          · cases hfound
            exact Or.inr ⟨f, mem_cons_self, hpayload⟩
          · exact Or.inl hfound
        · cases hput
      · exact Or.inr ⟨g, mem_cons_of_mem f hg, hpayload⟩

def stampedRead (py : Runtime) (a : Artifact) : Option Reading := (readEvidence py a).toOption.map (Prod.mk a.id)

theorem readStamped_ok_iff : ∀ artifacts read,
    readStamped py artifacts = .ok read ↔ artifacts.map (stampedRead py) = read.map some := by
  refine Outcomes.all_eq_ok rfl fun a artifacts => ?_
  rw [readStamped, stampedRead, readEvidence]
  split
  · exact .inl ⟨_, rfl, rfl⟩
  · cases py.evidence a.payload with
    | error exc => exact .inl ⟨_, rfl, rfl⟩
    | ok evidence => exact .inr ⟨_, rfl, rfl⟩

theorem loadStamped_ok_iff : loadStamped py store ids = .ok read ↔
    ids ≠ [] ∧ (∀ id ∈ ids, (readAt py store id).isSome) ∧ read = readings py store ids := by
  have hread : ∀ id, (readAt py store id).isSome → ∃ a, store.get? id = some a := by
    intro id h
    obtain ⟨evidence, he⟩ := isSome_iff_exists.mp h
    obtain ⟨a, ha, -⟩ := bind_eq_some_iff.mp he
    exact ⟨a, ha⟩
  unfold loadStamped
  split
  · next hnone => exact iff_of_false (fun h => by cases h) fun h => h.1 hnone
  · next hsome =>
    dsimp only
    split
    · next hmissing =>
      refine iff_of_false (fun h => by cases h) fun h => ?_
      exact hmissing (missing_eq_nil_iff.mpr fun id hid => hread id (h.2.1 id hid))
    · next hall =>
      have hfound := missing_eq_nil_iff.mp (not_not.mp hall)
      have hmaps : (ids.filterMap store.get?).map (stampedRead py) =
          ids.map fun id => (readAt py store id).map (Prod.mk id) := by
        clear hall hsome
        induction ids with
        | nil => rfl
        | cons id ids ih =>
          obtain ⟨a, ha⟩ := hfound id mem_cons_self
          rw [filterMap_cons_some ha, map_cons, map_cons, ih fun id hid => hfound id (mem_cons_of_mem _ hid),
            stampedRead, readAt, ha, bind_some, Table.key_of_get? ha]
      rw [readStamped_ok_iff, hmaps, map_eq_map_some]
      simp only [isSome_map]
      exact ⟨fun h => ⟨hsome, h.2, h.1⟩, fun h => ⟨h.2.2, h.2.1⟩⟩

/-! What stands under a label. -/

variable {labelsOf : EvidenceArtifact → List String} {r : Reading} {control : String × ℚ}

theorem mem_stamps {w : String × ℚ} :
    (label, w) ∈ stamps labelsOf r ↔ r.2.value = some w.2 ∧ label ∈ labelsOf r.2 ∧ w.1 = r.1 := by
  unfold stamps
  cases hvalue : r.2.value with
  | none => simp
  | some value =>
    rw [List.mem_map]
    constructor
    · intro ⟨l, hl, heq⟩
      cases heq
      exact ⟨rfl, hl, rfl⟩
    · intro ⟨hw, hl, hid⟩
      cases hw
      exact ⟨label, hl, Prod.ext rfl (Prod.ext hid.symm rfl)⟩

theorem stamped_iff : Stamped label r ↔ ∃ w, (label, w) ∈ stamps allLabels r := by
  constructor
  · intro ⟨hvalue, hlabel⟩
    obtain ⟨value, hvalue⟩ := isSome_iff_exists.mp hvalue
    exact ⟨(r.1, value), mem_stamps.mpr ⟨hvalue, hlabel, rfl⟩⟩
  · intro ⟨w, hw⟩
    obtain ⟨hvalue, hlabel, -⟩ := mem_stamps.mp hw
    exact ⟨by rw [hvalue]; rfl, hlabel⟩

theorem reading_eq {r' : Reading} (hr : r ∈ readings py store ids) (hr' : r' ∈ readings py store ids)
    (h : r'.1 = r.1) : r' = r := by
  obtain ⟨-, hread⟩ := mem_readings.mp hr
  obtain ⟨-, hread'⟩ := mem_readings.mp hr'
  rw [h, hread] at hread'
  exact Prod.ext h (Option.some.inj hread').symm

theorem mem_evaluations {byLabel : Dict String (String × ℚ)} {variant : Variant} {f : Finding} :
    (variant, f) ∈ evaluations e byLabel control ↔ variant ∈ e.treatments ∧
      ∃ found, byLabel.get? variant.label = some found ∧ f = evaluation e control variant found := by
  unfold evaluations
  rw [mem_filterMap]
  constructor
  · intro ⟨v, hv, h⟩
    obtain ⟨found, hfound, hpair⟩ := map_eq_some_iff.mp h
    cases hpair
    exact ⟨hv, found, hfound, rfl⟩
  · intro ⟨hv, found, hfound, hf⟩
    exact ⟨variant, hv, map_eq_some_iff.mpr ⟨found, hfound, by rw [hf]⟩⟩

theorem evaluation_refs {control' found found' : String × ℚ} {variant variant' : Variant}
    (h : evaluation e control variant found = evaluation e control' variant' found') :
    control.1 = control'.1 ∧ found.1 = found'.1 := by
  have hids : [control.1, found.1] = [control'.1, found'.1] := congrArg Finding.evidenceIds h
  obtain ⟨hcontrol, hrest⟩ := List.cons.inj hids
  exact ⟨hcontrol, (List.cons.inj hrest).1⟩

theorem findingsBy_eq {control : Variant} (hcontrol : e.control = some control)
    (hload : loadStamped py store ids = .ok read) : findingsBy py labelsOf store e ids =
      ((Dict.written (stamps labelsOf) read).get? control.label).elim []
        (evaluations e (Dict.written (stamps labelsOf) read)) := by
  unfold findingsBy
  rw [hcontrol, hload]

theorem findingsBy_cases {p : Variant × Finding} (h : p ∈ findingsBy py labelsOf store e ids) :
    ∃ control read c, e.control = some control ∧
      loadStamped py store ids = .ok read ∧ (Dict.written (stamps labelsOf) read).get? control.label = some c ∧
      p ∈ evaluations e (Dict.written (stamps labelsOf) read) c := by
  unfold findingsBy at h
  split at h
  · next control read hcontrol hload =>
    dsimp only at h
    cases hget : (Dict.written (stamps labelsOf) read).get? control.label with
    | none =>
      rw [hget] at h
      exact absurd h not_mem_nil
    | some c =>
      rw [hget] at h
      exact ⟨control, read, c, hcontrol, hload, hget, h⟩
  · exact absurd h not_mem_nil

/-- What an evaluation adds to the store is among its findings. -/
theorem evaluateExperiment_new {registry : ExperimentRegistry} {desk : Desk} {experimentId id : String} {a : Artifact}
    (he : registry.get? experimentId = some e)
    (h : (evaluateExperiment py deps registry desk experimentId ids).2.artifacts.get? id = some a) :
    desk.artifacts.get? id = some a ∨
      ∃ p ∈ findingsBy py allLabels desk.artifacts e ids, a.payload = .finding p.2 := by
  unfold evaluateExperiment at h
  rw [he] at h
  dsimp only at h
  split at h
  · exact Or.inl h
  · next control hcontrol =>
    split at h
    · exact Or.inl h
    · next read hload =>
      rw [findingsBy_eq hcontrol hload]
      split at h
      · exact Or.inl h
      · next found hfound =>
        rw [hfound]
        have hput : (putEvaluations py deps ((evaluations e (Dict.written (stamps allLabels) read) found).map Prod.snd)
            desk).2.artifacts.get? id = some a := by
          split at h
          · next hrun =>
            rw [hrun]
            exact h
          · next hrun =>
            rw [hrun]
            exact h
          · next hrun =>
            rw [hrun]
            exact h
        obtain hold | ⟨f, hf, hpayload⟩ := putEvaluations_new _ _ hput
        · exact Or.inl hold
        · obtain ⟨p, hp, rfl⟩ := List.mem_map.mp hf
          exact Or.inr ⟨p, hp, hpayload⟩

/-! With one reading last. -/

theorem readings_concat {front back : List String} (hr : readAt py store r.1 = some r.2) :
    readings py store (front ++ back ++ [r.1]) = readings py store (front ++ back) ++ [r] := by
  have hlast : (readAt py store r.1).map (Prod.mk r.1) = some r := by
    rw [hr]
    rfl
  unfold readings
  rw [filterMap_append]
  exact congrArg _ (filterMap_cons_some hlast)

theorem exists_perm_stands {w : String × ℚ} (hload : loadStamped py store ids = .ok read) (hr : r ∈ read)
    (hw : (label, w) ∈ stamps allLabels r) : ∃ ids' read', ids.Perm ids' ∧ loadStamped py store ids' = .ok read' ∧
      read.Perm read' ∧ (Dict.written (stamps allLabels) read').get? label = some w := by
  obtain ⟨hne, hall, rfl⟩ := loadStamped_ok_iff.mp hload
  obtain ⟨hid, hread⟩ := mem_readings.mp hr
  obtain ⟨front, back, hids⟩ := append_of_mem hid
  have hperm : ids.Perm (front ++ back ++ [r.1]) := by
    rw [hids]
    exact perm_middle.trans (perm_append_singleton _ _).symm
  have hstands : (Dict.written (stamps allLabels) (readings py store (front ++ back ++ [r.1]))).get? label = some w := by
    rw [readings_concat hread]
    refine Dict.get?_written_concat hw fun w' hw' => ?_
    obtain ⟨hvalue, -, hsource⟩ := mem_stamps.mp hw
    obtain ⟨hvalue', -, hsource'⟩ := mem_stamps.mp hw'
    exact Prod.ext (hsource'.trans hsource.symm) (Option.some.inj (hvalue'.symm.trans hvalue))
  refine ⟨_, _, hperm, loadStamped_ok_iff.mpr ⟨by simp, ?_, rfl⟩, readings_perm hperm, hstands⟩
  exact fun id hmem => hall id (hperm.mem_iff.mpr hmem)

theorem exists_stands {w : String × ℚ} (hr : r ∈ read) (hw : (label, w) ∈ stamps labelsOf r) :
    ∃ w', (Dict.written (stamps labelsOf) read).get? label = some w' := by
  cases hget : (Dict.written (stamps labelsOf) read).get? label with
  | none => exact absurd hw (Dict.get?_written_eq_none.mp hget r hr w)
  | some w' => exact ⟨w', rfl⟩

theorem Fair.comparable {dimension : String} (h : Fair py store e ids dimension) : Comparable py store e ids := by
  intro control read hcontrol hload ⟨c₀, hc₀, hstamped₀⟩ ⟨variant₀, hvariant₀, v₀, hv₀, hlabel₀⟩
  obtain ⟨-, -, hread⟩ := loadStamped_ok_iff.mp hload
  -- what is written when a reading stands under its label
  have hlast : ∀ {label : String} {r : Reading}, r ∈ read → Stamped label r → ∃ by' : Dict String (String × ℚ), ∃ w c,
      by'.get? label = some w ∧ w.1 = r.1 ∧ by'.get? control.label = some c ∧
        findingsBy py allLabels store e ids = evaluations e by' c := by
    intro label r hr hlabel
    obtain ⟨w, hw⟩ := stamped_iff.mp hlabel
    obtain ⟨ids', read', hperm, hload', hreadPerm, hget⟩ := exists_perm_stands hload hr hw
    obtain ⟨w₀, hw₀⟩ := stamped_iff.mp hstamped₀
    obtain ⟨c, hc⟩ := exists_stands (hreadPerm.mem_iff.mp hc₀) hw₀
    refine ⟨_, w, c, hget, (mem_stamps.mp hw).2.2, hc, ?_⟩
    rw [← h.order ids' hperm, findingsBy_eq hcontrol hload', hc]
    rfl
  -- the source of a finding, told by its references
  have hsource : ∀ {variant f}, (variant, f) ∈ findingsBy py allLabels store e ids → ∃ c v cv vv, c ∈ read ∧ v ∈ read ∧
      c.2.metricId = e.metricId ∧ v.2.metricId = e.metricId ∧ c.2.dimensions.get? dimension = some control.label ∧
      v.2.dimensions.get? dimension = some variant.label ∧ Alike dimension c v ∧
      f = evaluation e (c.1, cv) variant (v.1, vv) := by
    intro variant f hf
    obtain ⟨control', c, v, cv, vv, hcontrol', hc, hv, -, -, hcm, hvm, hcd, hvd, halike, hfind⟩ := h.sources variant f hf
    rw [hcontrol] at hcontrol'
    obtain rfl := Option.some.inj hcontrol'
    rw [← hread] at hc hv
    exact ⟨c, v, cv, vv, hc, hv, hcm, hvm, hcd, hvd, halike, hfind⟩
  have hsame : ∀ {r r' : Reading}, r ∈ read → r' ∈ read → r'.1 = r.1 → r' = r := by
    intro r r' hr hr' hid
    rw [hread] at hr hr'
    exact reading_eq hr hr' hid
  -- the control's readings
  have hcontrolOf : ∀ r ∈ read, Stamped control.label r → ∀ {variant c₁ found}, (variant, evaluation e c₁ variant found) ∈
      findingsBy py allLabels store e ids → c₁.1 = r.1 := by
    intro r hr hlabel variant c₁ found hmem
    obtain ⟨by', w, c, hget, hid, hc, heq⟩ := hlast hr hlabel
    rw [heq] at hmem
    obtain ⟨-, found', -, hf⟩ := mem_evaluations.mp hmem
    rw [hget] at hc
    obtain rfl := Option.some.inj hc
    exact (evaluation_refs hf).1.trans hid
  have hvariantOf : ∀ variant ∈ e.treatments, ∀ r ∈ read, Stamped variant.label r →
      (∃ c₁ found, (variant, evaluation e c₁ variant found) ∈ findingsBy py allLabels store e ids) ∧
        ∀ {c₁ found}, (variant, evaluation e c₁ variant found) ∈ findingsBy py allLabels store e ids → found.1 = r.1 := by
    intro variant hvariant r hr hlabel
    obtain ⟨by', w, c, hget, hid, hc, heq⟩ := hlast hr hlabel
    rw [heq]
    refine ⟨⟨c, w, mem_evaluations.mpr ⟨hvariant, w, hget, rfl⟩⟩, fun hmem => ?_⟩
    obtain ⟨-, found', hfound', hf⟩ := mem_evaluations.mp hmem
    rw [hget] at hfound'
    obtain rfl := Option.some.inj hfound'
    exact (evaluation_refs hf).2.trans hid
  obtain ⟨c₁, found₁, hmem₁⟩ := (hvariantOf variant₀ hvariant₀ v₀ hv₀ hlabel₀).1
  refine ⟨dimension, fun label hlabel r hr hstamped => ?_⟩
  obtain rfl | hlabel := mem_cons.mp hlabel
  · obtain ⟨c, v, cv, vv, hc, -, hcm, -, hcd, -, -, hf⟩ := hsource hmem₁
    have hid : c.1 = r.1 := (evaluation_refs hf).1.symm.trans (hcontrolOf r hr hstamped hmem₁)
    obtain rfl := hsame hr hc hid
    refine ⟨hcm, hcd, fun r' hr' hstamped' => ?_, fun c' hc' hstamped' => ?_⟩
    · exact (hcontrolOf r' hr' hstamped' hmem₁).symm.trans (hcontrolOf c hr hstamped hmem₁)
    · obtain rfl := hsame hr hc' ((hcontrolOf c' hc' hstamped' hmem₁).symm.trans (hcontrolOf c hr hstamped hmem₁))
      exact ⟨rfl, rfl, fun _ _ => rfl⟩
  · obtain ⟨variant, hvariant, rfl⟩ := List.mem_map.mp hlabel
    obtain ⟨⟨c₂, found₂, hmem₂⟩, hfound⟩ := hvariantOf variant hvariant r hr hstamped
    obtain ⟨c, v, cv, vv, hc, hv, -, hvm, -, hvd, halike, hf⟩ := hsource hmem₂
    have hid : v.1 = r.1 := (evaluation_refs hf).2.symm.trans (hfound hmem₂)
    obtain rfl := hsame hr hv hid
    refine ⟨hvm, hvd, fun r' hr' hstamped' => ?_, fun c' hc' hstamped' => ?_⟩
    · exact ((hvariantOf variant hvariant r' hr' hstamped').2 hmem₂).symm.trans (hfound hmem₂)
    · have hid' : c.1 = c'.1 := (evaluation_refs hf).1.symm.trans (hcontrolOf c' hc' hstamped' hmem₂)
      obtain rfl := hsame hc hc' hid'.symm
      exact halike

theorem findingsBy_nil (hsub : ∀ e : EvidenceArtifact, ∀ label ∈ labelsOf e, label ∈ allLabels e)
    (h : ¬ ∃ control read, e.control = some control ∧ loadStamped py store ids = .ok read ∧
      (∃ r ∈ read, Stamped control.label r) ∧ ∃ variant ∈ e.treatments, ∃ r ∈ read, Stamped variant.label r) :
    findingsBy py labelsOf store e ids = [] := by
  rw [eq_nil_iff_forall_not_mem]
  intro p hp
  obtain ⟨control, read, c, hcontrol, hload, hget, hmem⟩ := findingsBy_cases hp
  have hstands : ∀ {label w}, (Dict.written (stamps labelsOf) read).get? label = some w → ∃ r ∈ read, Stamped label r := by
    intro label w hw
    obtain ⟨r, hr, hstamp⟩ := Dict.exists_of_get?_written hw
    obtain ⟨hvalue, hlabel, -⟩ := mem_stamps.mp hstamp
    exact ⟨r, hr, by rw [hvalue]; rfl, hsub _ _ hlabel⟩
  obtain ⟨hvariant, found, hfound, -⟩ := mem_evaluations.mp hmem
  exact h ⟨control, read, hcontrol, hload, hstands hget, p.1, hvariant, hstands hfound⟩

theorem labelUnder_subset (dimension : String) (e : EvidenceArtifact) :
    ∀ label ∈ labelUnder dimension e, label ∈ allLabels e := by
  intro label hlabel
  rw [labelUnder, mem_toList] at hlabel
  obtain ⟨row, hrow, rfl⟩ := map_eq_some_iff.mp hlabel
  exact List.mem_map_of_mem (Table.mem_of_get? hrow)

theorem evaluations_congr {byLabel byLabel' : Dict String (String × ℚ)}
    (h : ∀ variant ∈ e.treatments, byLabel.get? variant.label = byLabel'.get? variant.label) :
    evaluations e byLabel control = evaluations e byLabel' control :=
  filterMap_congr fun variant hvariant => by rw [h variant hvariant]

theorem Comparable.fair (h : Comparable py store e ids) : ∃ dimension, Fair py store e ids dimension := by
  have hswapped : ∀ name a b, (PercentSigns.lift name a b).absolute = -(PercentSigns.lift name b a).absolute := by
    intro name a b
    exact (neg_sub a b).symm
  by_cases hsome : ∃ control read, e.control = some control ∧ loadStamped py store ids = .ok read ∧
      (∃ r ∈ read, Stamped control.label r) ∧ ∃ variant ∈ e.treatments, ∃ r ∈ read, Stamped variant.label r
  · obtain ⟨control, read, hcontrol, hload, hstamped, hvariants⟩ := hsome
    obtain ⟨dimension, hdimension⟩ := h control read hcontrol hload hstamped hvariants
    obtain ⟨hne, hall, hread⟩ := loadStamped_ok_iff.mp hload
    have hagree : ∀ label ∈ control.label :: e.treatments.map Variant.label, ∀ r ∈ read, ∀ r' ∈ read, ∀ w w',
        (label, w) ∈ stamps allLabels r → (label, w') ∈ stamps allLabels r' → w = w' := by
      intro label hlabel r hr r' hr' w w' hw hw'
      have hid := (hdimension label hlabel r hr (stamped_iff.mpr ⟨w, hw⟩)).2.2.1 r' hr' (stamped_iff.mpr ⟨w', hw'⟩)
      have hsame : r' = r := by
        rw [hread] at hr hr'
        exact reading_eq hr hr' hid
      subst hsame
      obtain ⟨hvalue, -, hsource⟩ := mem_stamps.mp hw
      obtain ⟨hvalue', -, hsource'⟩ := mem_stamps.mp hw'
      exact Prod.ext (hsource.trans hsource'.symm) (Option.some.inj (hvalue.symm.trans hvalue'))
    -- all ways of writing the labels come to the same
    have hget : ∀ {labelsOf : EvidenceArtifact → List String} {read' : List Reading},
        (∀ label ∈ control.label :: e.treatments.map Variant.label, ∀ w,
          (∃ r ∈ read, (label, w) ∈ stamps allLabels r) ↔ ∃ r ∈ read', (label, w) ∈ stamps labelsOf r) →
        ∀ label ∈ control.label :: e.treatments.map Variant.label,
          (Dict.written (stamps allLabels) read).get? label = (Dict.written (stamps labelsOf) read').get? label :=
      fun hsame label hlabel => Dict.get?_written_congr (hsame label hlabel) (hagree label hlabel)
    have hfindings : ∀ {labelsOf : EvidenceArtifact → List String} {ids' : List String} {read' : List Reading},
        loadStamped py store ids' = .ok read' →
        (∀ label ∈ control.label :: e.treatments.map Variant.label, ∀ w,
          (∃ r ∈ read, (label, w) ∈ stamps allLabels r) ↔ ∃ r ∈ read', (label, w) ∈ stamps labelsOf r) →
        findingsBy py labelsOf store e ids' = findingsBy py allLabels store e ids := by
      intro labelsOf ids' read' hload' hsame
      rw [findingsBy_eq hcontrol hload', findingsBy_eq hcontrol hload, ← hget hsame _ mem_cons_self]
      refine congrArg _ (funext fun c => (evaluations_congr fun variant hvariant => ?_).symm)
      exact hget hsame _ (mem_cons_of_mem _ (List.mem_map_of_mem hvariant))
    refine ⟨dimension, ?_, ?_, ?_, hswapped⟩
    · intro variant f hf
      obtain ⟨control', read', c, hcontrol', hload', hc, hmem⟩ := findingsBy_cases hf
      rw [hcontrol] at hcontrol'
      obtain rfl := Option.some.inj hcontrol'
      rw [hload] at hload'
      obtain rfl := Except.ok.inj hload'
      obtain ⟨hvariant, found, hfound, rfl⟩ := mem_evaluations.mp hmem
      obtain ⟨rc, hrc, hstampc⟩ := Dict.exists_of_get?_written hc
      obtain ⟨rv, hrv, hstampv⟩ := Dict.exists_of_get?_written hfound
      obtain ⟨hvaluec, -, hidc⟩ := mem_stamps.mp hstampc
      obtain ⟨hvaluev, -, hidv⟩ := mem_stamps.mp hstampv
      have hlabelc := stamped_iff.mpr ⟨c, hstampc⟩
      obtain ⟨hmetricc, hdimc, -, -⟩ := hdimension _ mem_cons_self rc hrc hlabelc
      obtain ⟨hmetricv, hdimv, -, halike⟩ := hdimension _ (mem_cons_of_mem _ (List.mem_map_of_mem hvariant)) rv hrv
        (stamped_iff.mpr ⟨found, hstampv⟩)
      rw [← hread]
      refine ⟨control, rc, rv, c.2, found.2, hcontrol, hrc, hrv, hvaluec, hvaluev, hmetricc, hmetricv, hdimc, hdimv,
        halike rc hrc hlabelc, ?_⟩
      rw [← hidc, ← hidv]
    · intro ids' hperm
      refine hfindings (loadStamped_ok_iff.mpr ⟨?_, fun id hid => hall id (hperm.mem_iff.mpr hid), rfl⟩) fun label _ w => ?_
      · intro hnil
        rw [hnil] at hperm
        exact hne hperm.eq_nil
      · have hmem : ∀ r, r ∈ read ↔ r ∈ readings py store ids' := by
          intro r
          rw [hread]
          exact (readings_perm hperm).mem_iff
        simp only [hmem]
    · refine hfindings hload fun label hlabel w => exists_congr fun r => and_congr_right fun hr => ?_
      rw [mem_stamps, mem_stamps]
      refine and_congr_right fun hvalue => and_congr_left fun _ => ?_
      constructor
      · intro hall'
        have hdim := (hdimension label hlabel r hr ⟨by rw [hvalue]; rfl, hall'⟩).2.1
        rw [labelUnder, hdim]
        exact mem_singleton_self _
      · exact labelUnder_subset dimension r.2 label
  · have hnil := findingsBy_nil (fun _ _ hlabel => hlabel) hsome
    refine ⟨"", ?_, ?_, ?_, hswapped⟩
    · intro variant f hf
      rw [hnil] at hf
      exact absurd hf not_mem_nil
    · intro ids' hperm
      rw [hnil]
      refine findingsBy_nil (fun _ _ hlabel => hlabel) fun hsome' => hsome ?_
      obtain ⟨control, read, hcontrol, hload, ⟨c, hc, hstampedc⟩, variant, hvariant, v, hv, hstampedv⟩ := hsome'
      obtain ⟨hne, hall, rfl⟩ := loadStamped_ok_iff.mp hload
      have hmem : ∀ r, r ∈ readings py store ids' → r ∈ readings py store ids := fun r hr =>
        (readings_perm hperm).mem_iff.mpr hr
      refine ⟨control, _, hcontrol, loadStamped_ok_iff.mpr ⟨?_, fun id hid => hall id (hperm.mem_iff.mp hid), rfl⟩,
        ⟨c, hmem c hc, hstampedc⟩, variant, hvariant, v, hmem v hv, hstampedv⟩
      intro hnil'
      rw [hnil'] at hperm
      exact hne hperm.symm.eq_nil
    · rw [hnil]
      exact findingsBy_nil (labelUnder_subset "") hsome

/-- An experiment is evaluated fairly just when each label is on one comparable artifact. -/
theorem fair_iff_comparable (py : Runtime) (store : ArtifactStore) (e : Experiment) (ids : List String) :
    (∃ dimension, Fair py store e ids dimension) ↔ Comparable py store e ids :=
  ⟨fun ⟨_, h⟩ => h.comparable, Comparable.fair⟩

/-! A button with two texts, and a revenue that is stamped with one of them. -/

def buttonExperiment : Experiment where
  experimentId := "exp.checkout_button_copy.2026_09"
  metricId := "metric.purchase_cvr"
  variants := [⟨"control", "buy_now", true⟩, ⟨"treatment", "complete_order", false⟩]

def buttonReading (metricId label : String) (value : ℚ) : EvidenceArtifact where
  metricId := metricId
  dimensions := Dict.empty.set "experiment_variant" label
  grain := "day"
  periodStart := september 9 ninth_range
  periodEnd := september 9 ninth_range
  value := some value

def buttonEvidence : String → Option EvidenceArtifact
  | "control" => some (buttonReading "metric.purchase_cvr" "buy_now" (21 / 1000))
  | "treatment" => some (buttonReading "metric.purchase_cvr" "complete_order" (25 / 1000))
  | "revenue" => some (buttonReading "metric.revenue" "buy_now" 1200)
  | _ => none

def buttonStore : ArtifactStore := Table.empty.put (storedAs "control") |>.put (storedAs "treatment") |>.put (storedAs "revenue")

def buttonDesk : Desk where
  artifacts := buttonStore
  issued := 0

theorem evaluateExperiment_new_button : ∃ id a,
    (evaluateExperiment (named buttonEvidence) Agent.oneBrandDeps (Table.empty.put buttonExperiment) buttonDesk
      buttonExperiment.experimentId ["control", "treatment"]).2.artifacts.get? id = some a ∧
    ∃ p ∈ findingsBy (named buttonEvidence) allLabels buttonStore buttonExperiment ["control", "treatment"],
      a.payload = .finding p.2 := by
  have hstored : ((evaluateExperiment (named buttonEvidence) Agent.oneBrandDeps (Table.empty.put buttonExperiment)
      buttonDesk buttonExperiment.experimentId ["control", "treatment"]).2.artifacts.get?
        (newId "artifact" .nil)).isSome = true := by decide +kernel
  obtain ⟨a, h⟩ := isSome_iff_exists.mp hstored
  exact ⟨_, a, h, (evaluateExperiment_new rfl h).resolve_left nofun⟩

/-- The control's value is that of the revenue. -/
theorem button_unfair : ¬ ∃ dimension,
    Fair (named buttonEvidence) buttonStore buttonExperiment ["control", "treatment", "revenue"] dimension := by
  rintro ⟨dimension, h⟩
  let control : Reading := ("control", buttonReading "metric.purchase_cvr" "buy_now" (21 / 1000))
  let treatment : Reading := ("treatment", buttonReading "metric.purchase_cvr" "complete_order" (25 / 1000))
  let revenue : Reading := ("revenue", buttonReading "metric.revenue" "buy_now" 1200)
  have hload : loadStamped (named buttonEvidence) buttonStore ["control", "treatment", "revenue"] =
      .ok [control, treatment, revenue] := rfl
  have hcontrol : Stamped "buy_now" control := ⟨rfl, mem_singleton_self _⟩
  have htreatment : Stamped "complete_order" treatment := ⟨rfl, mem_singleton_self _⟩
  have hrevenue : Stamped "buy_now" revenue := ⟨rfl, mem_singleton_self _⟩
  obtain ⟨d, hd⟩ := h.comparable ⟨"control", "buy_now", true⟩ _ rfl hload ⟨control, by simp, hcontrol⟩
    ⟨⟨"treatment", "complete_order", false⟩, by simp [Experiment.treatments, buttonExperiment], treatment, by simp, htreatment⟩
  have hmetric : "metric.revenue" = "metric.purchase_cvr" := (hd "buy_now" mem_cons_self revenue (by simp) hrevenue).1
  exact absurd hmetric (by decide)

end SelericSwarm.Analytics.Experiments
