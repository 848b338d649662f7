import SelericSwarm.SourceConflicts
import SelericSwarm.TrustScore

/-! The two signals do not depend on the order in which the store lists the artifacts of a mission. -/
namespace SelericSwarm.Validation
open Keyed List

/-- The same text, up to the order of the ids that it lists. -/
def SameText (py : Runtime) (text text' : String) : Prop :=
  text' = text ∨ ∃ before ids ids', ids.Perm ids' ∧ text = before ++ py.listed ids ∧ text' = before ++ py.listed ids'

def SameWords (py : Runtime) (ch ch' : Challenge) : Prop := SameText py ch.description ch'.description

/-- What a conflict of these rows says where this one comes first. -/
def conflictText (rows : List Measurement) (first : Measurement) : String :=
  first.metricId ++ " on " ++ first.periodStart.date.isoformat ++ apartText (rows.map Measurement.value)

/-- The conflict of one series, each time with the date of one of its rows. -/
def Redated (points : List Measurement) (ch ch' : Challenge) : Prop :=
  ∃ k, ch.category = "source" ∧
    ch.evidenceRefs.Perm ((Dict.group Measurement.key points k).map Measurement.id) ∧
    ∃ m ∈ Dict.group Measurement.key points k, ∃ m' ∈ Dict.group Measurement.key points k,
      ch.description = conflictText (Dict.group Measurement.key points k) m ∧
        ch'.description = conflictText (Dict.group Measurement.key points k) m'

def Retold (py : Runtime) (points : List Measurement) (ch ch' : Challenge) : Prop :=
  SameWords py ch ch' ∨ Redated points ch ch'

/-- The same challenge, but for the order of the ids and the wording. -/
structure Challenge.Alike (reads : Challenge → Challenge → Prop) (ch ch' : Challenge) : Prop where
  category : ch'.category = ch.category
  severity : ch'.severity = ch.severity
  contradictionType : ch'.contradictionType = ch.contradictionType
  evidenceRefs : ch.evidenceRefs.Perm ch'.evidenceRefs
  description : reads ch ch'

theorem Challenge.Alike.refl (py : Runtime) (points : List Measurement) (ch : Challenge) :
    ch.Alike (Retold py points) ch :=
  ⟨rfl, rfl, rfl, .refl _, .inl (.inl rfl)⟩

/-- Every challenge of the first has one like it in the second. -/
def Matched (reads : Challenge → Challenge → Prop) (challenges challenges' : List Challenge) : Prop :=
  ∀ ch ∈ challenges, ∃ ch' ∈ challenges', ch.Alike reads ch'

/-- Outcomes of one check that say the same. -/
structure CheckOutcome.Alike (py : Runtime) (points : List Measurement) (oc oc' : CheckOutcome) : Prop where
  status : oc'.status = oc.status
  scoreSignals : oc'.scoreSignals = oc.scoreSignals
  issues : oc'.methodologicalIssues = oc.methodologicalIssues
  gaps : oc.gaps.Perm oc'.gaps
  matched : Matched (Retold py points) oc.challenges oc'.challenges
  matched' : Matched (Retold py points) oc'.challenges oc.challenges

section Checks
variable {py : Runtime} {points : List Measurement} {artifacts artifacts' : List Artifact}

theorem matched_of_subset {challenges challenges' : List Challenge} (h : challenges ⊆ challenges') :
    Matched (Retold py points) challenges challenges' := fun ch hch => ⟨ch, h hch, .refl py points ch⟩

theorem CheckOutcome.Alike.refl (oc : CheckOutcome) : oc.Alike py points oc :=
  ⟨rfl, rfl, rfl, .refl _, matched_of_subset (List.Subset.refl _), matched_of_subset (List.Subset.refl _)⟩

theorem ofType_perm (type : String) (h : artifacts.Perm artifacts') : (ofType type artifacts).Perm (ofType type artifacts') :=
  h.filter _

theorem nil_iff {α : Type} {xs ys : List α} (h : xs.Perm ys) : xs = [] ↔ ys = [] := by
  constructor
  · intro hnil
    exact Perm.nil_eq (hnil ▸ h) |>.symm
  · intro hnil
    exact (hnil ▸ h).eq_nil

theorem alike_single {oc oc' : CheckOutcome} {ch ch' : Challenge} (hstatus : oc'.status = oc.status)
    (hsignals : oc'.scoreSignals = oc.scoreSignals) (hissues : oc'.methodologicalIssues = oc.methodologicalIssues)
    (hgaps : oc.gaps.Perm oc'.gaps) (hch : oc.challenges = [ch]) (hch' : oc'.challenges = [ch'])
    (h : ch.Alike (Retold py points) ch') (h' : ch'.Alike (Retold py points) ch) : oc.Alike py points oc' := by
  refine ⟨hstatus, hsignals, hissues, hgaps, ?_, ?_⟩
  · rw [hch, hch']
    intro c hc
    rw [mem_singleton.mp hc]
    exact ⟨ch', mem_singleton_self ch', h⟩
  · rw [hch, hch']
    intro c hc
    rw [mem_singleton.mp hc]
    exact ⟨ch, mem_singleton_self ch, h'⟩

theorem alike_listed {ch ch' : Challenge} {text : String} {ids ids' : List String} (h : ids.Perm ids')
    (hcategory : ch'.category = ch.category) (hseverity : ch'.severity = ch.severity)
    (htype : ch'.contradictionType = ch.contradictionType) (hrefs : ch.evidenceRefs = ids)
    (hrefs' : ch'.evidenceRefs = ids') (htext : ch.description = text ++ py.listed ids)
    (htext' : ch'.description = text ++ py.listed ids') : ch.Alike (Retold py points) ch' :=
  ⟨hcategory, hseverity, htype, hrefs ▸ hrefs' ▸ h, .inl (.inr ⟨text, ids, ids', h, htext, htext'⟩)⟩

theorem checkEvidence_alike (now : Int) (h : artifacts.Perm artifacts') :
    (checkEvidence py now artifacts).Alike py points (checkEvidence py now artifacts') := by
  have hrows := ofType_perm "evidence" h
  have hunparsed := (hrows.filter fun a => (py.evidence a.payload).isNone).map Artifact.id
  have hparsed := hrows.filterMap fun a => py.evidence a.payload
  have hvalued := hparsed.filter fun ev => ev.value.isSome
  have hnulls := hparsed.filter fun ev => ev.value.isNone
  have hstale := (hvalued.filter (EvidenceArtifact.stale now)).length_eq
  unfold checkEvidence
  dsimp only
  rw [← hvalued.length_eq, ← hnulls.length_eq, ← hstale]
  simp only [← nil_iff hrows, ← nil_iff h, ← nil_iff hvalued]
  split
  · exact .refl _
  · by_cases hall : ((ofType "evidence" artifacts).filter fun a => (py.evidence a.payload).isNone).map Artifact.id = []
    · rw [if_neg (not_not.mpr hall), if_neg (not_not.mpr ((nil_iff hunparsed).mp hall))]
      exact .refl _
    · rw [if_pos hall, if_pos fun hnil => hall ((nil_iff hunparsed).mpr hnil)]
      exact alike_single rfl rfl rfl (.refl _) rfl rfl (alike_listed hunparsed rfl rfl rfl rfl rfl rfl rfl)
        (alike_listed hunparsed.symm rfl rfl rfl rfl rfl rfl rfl)

theorem checkProvenance_alike (h : artifacts.Perm artifacts') :
    (checkProvenance py artifacts).Alike py points (checkProvenance py artifacts') := by
  have hdurable := h.filter fun a => a.classification ≠ .ui
  have hoffenders := (hdurable.filter Offends).map Artifact.id
  unfold checkProvenance
  dsimp only
  simp only [← nil_iff hdurable]
  split
  · exact .refl _
  · by_cases hall : ((artifacts.filter fun a => a.classification ≠ .ui).filter Offends).map Artifact.id = []
    · rw [if_neg (not_not.mpr hall), if_neg (not_not.mpr ((nil_iff hoffenders).mp hall))]
      exact .refl _
    · rw [if_pos hall, if_pos fun hnil => hall ((nil_iff hoffenders).mpr hnil)]
      exact alike_single rfl rfl rfl (.refl _) rfl rfl (alike_listed hoffenders rfl rfl rfl rfl rfl rfl rfl)
        (alike_listed hoffenders.symm rfl rfl rfl rfl rfl rfl rfl)

/-! The series, and the scores of the causal artifacts. -/

theorem extremes_perm {values values' : List ℚ} (h : values.Perm values') :
    lowest values = lowest values' ∧ highest values = highest values' := by
  by_cases hnil : values = []
  · rw [hnil, (nil_iff h).mp hnil]
    exact ⟨rfl, rfl⟩
  · obtain ⟨hlow, hleast⟩ := lowest_spec fun hnil' => hnil ((nil_iff h).mpr hnil')
    obtain ⟨hhigh, hgreatest⟩ := highest_spec fun hnil' => hnil ((nil_iff h).mpr hnil')
    exact ⟨lowest_eq (h.mem_iff.mpr hlow) fun v hv => hleast v (h.mem_iff.mp hv),
      highest_eq (h.mem_iff.mpr hhigh) fun v hv => hgreatest v (h.mem_iff.mp hv)⟩

theorem disagreement_perm {values values' : List ℚ} (h : values.Perm values') :
    disagreement values = disagreement values' := by
  obtain ⟨hlow, hhigh⟩ := extremes_perm h
  simp only [disagreement, hlow, hhigh]

theorem apartText_perm {values values' : List ℚ} (h : values.Perm values') : apartText values = apartText values' := by
  obtain ⟨hlow, hhigh⟩ := extremes_perm h
  unfold apartText
  rw [hlow, hhigh, disagreement_perm h]

theorem sourceConflict_description (m : Measurement) (rows : List Measurement) :
    (sourceConflict (m :: rows)).description = conflictText (m :: rows) m := by
  simp only [sourceConflict, conflictText, List.head?_cons, Option.map_some, Option.getD_some]

theorem conflictText_perm {rows rows' : List Measurement} (h : rows.Perm rows') (m : Measurement) :
    conflictText rows m = conflictText rows' m := by
  rw [conflictText, conflictText, apartText_perm (h.map Measurement.value)]

/-- The rows of a series in two orders. -/
theorem sourceConflict_alike {k : SeriesKey} {rows rows' : List Measurement} (h : rows.Perm rows')
    (hrows : rows.Perm (Dict.group Measurement.key points k)) :
    (sourceConflict rows).Alike (Retold py points) (sourceConflict rows') := by
  cases rows with
  | nil =>
    rw [← h.nil_eq]
    exact .refl py points _
  | cons m rows =>
    cases rows' with
    | nil => cases h.eq_nil
    | cons m' rows' =>
      have hrefs : (sourceConflict (m :: rows)).evidenceRefs.Perm (sourceConflict (m' :: rows')).evidenceRefs :=
        h.map Measurement.id
      refine ⟨rfl, rfl, rfl, hrefs, .inr ⟨k, rfl, hrows.map Measurement.id, m, hrows.mem_iff.mp mem_cons_self,
        m', hrows.mem_iff.mp (h.mem_iff.mpr mem_cons_self), ?_, ?_⟩⟩
      · rw [sourceConflict_description, conflictText_perm hrows]
      · rw [sourceConflict_description, conflictText_perm (h.symm.trans hrows)]

theorem conflicts_matched {rows rows' : List Measurement} (h : rows.Perm rows') (hrows : rows.Perm points) :
    Matched (Retold py points) ((conflicts rows).map Prod.snd) ((conflicts rows').map Prod.snd) := by
  unfold conflicts
  rw [List.map_map, List.map_map]
  intro ch hch
  obtain ⟨⟨k, g⟩, hg, rfl⟩ := List.mem_map.mp hch
  obtain ⟨hmem, hconflicting⟩ := mem_filter.mp hg
  obtain ⟨g', hmem', hperm⟩ := Dict.mem_grouped_of_perm Measurement.key h hmem
  obtain ⟨rfl, -⟩ := (Dict.mem_grouped Measurement.key).mp hmem
  refine ⟨sourceConflict g', List.mem_map.mpr ⟨(k, g'), mem_filter.mpr ⟨hmem', ?_⟩, rfl⟩, ?_⟩
  · simp only [conflicting] at hconflicting ⊢
    rwa [← hperm.length_eq, ← disagreement_perm (hperm.map Measurement.value)]
  · exact sourceConflict_alike hperm (hrows.filter _)

theorem conflicts_nil_iff {points' : List Measurement} (h : points.Perm points') :
    conflicts points = [] ↔ conflicts points' = [] := by
  have hflagged (k : SeriesKey) : Flagged points k ↔ Flagged points' k := by
    have hvalues : (valuesOf points k).Perm (valuesOf points' k) := (h.filter _).map _
    obtain ⟨hlow, hhigh⟩ := extremes_perm hvalues
    rw [flagged_iff, flagged_iff, hlow, hhigh]
  have hnone (points : List Measurement) : conflicts points = [] ↔ ∀ k, ¬Flagged points k := by
    rw [← map_eq_nil_iff (f := Prod.fst), eq_nil_iff_forall_not_mem]
    rfl
  rw [hnone, hnone]
  simp only [hflagged]

theorem checkContradiction_alike (h : artifacts.Perm artifacts') :
    (checkContradiction py artifacts).Alike py (measurements py artifacts) (checkContradiction py artifacts') := by
  have hpoints : (measurements py artifacts).Perm (measurements py artifacts') := (ofType_perm "evidence" h).filterMap _
  refine ⟨rfl, ?_, rfl, .refl _, conflicts_matched hpoints (.refl _), conflicts_matched hpoints.symm hpoints.symm⟩
  simp only [checkContradiction, contradiction, conflicts_nil_iff hpoints]

theorem checkCausal_alike (h : artifacts.Perm artifacts') :
    (checkCausal py artifacts).Alike py points (checkCausal py artifacts') := by
  have hrows := ofType_perm "causal" h
  have hscores := (hrows.filterMap fun a => py.causalOf a.payload).map
    fun parsed => min (1 : ℚ) ((parsed.passed : ℚ) / Policy.minRefutations)
  have hinvalid : ((ofType "causal" artifacts).any fun a => (py.causalOf a.payload).isNone) =
      (ofType "causal" artifacts').any fun a => (py.causalOf a.payload).isNone := hrows.any_eq
  have hchallenges := hrows.flatMap_right (causalChallenges py)
  unfold checkCausal
  dsimp only
  simp only [← nil_iff hrows, ← nil_iff hscores, ← Means.mean_perm hscores, ← hinvalid]
  split
  · exact .refl _
  · exact ⟨rfl, rfl, rfl, .refl _, matched_of_subset hchallenges.subset, matched_of_subset hchallenges.symm.subset⟩

theorem checkPrediction_alike (h : artifacts.Perm artifacts') :
    (checkPrediction py artifacts).Alike py points (checkPrediction py artifacts') := by
  have hrows := ofType_perm "prediction" h
  have hinvalid := hrows.filter fun a => (py.prediction a.payload).isNone
  have hparsed := hrows.filterMap fun a => py.prediction a.payload
  have hunchecked := (hrows.filter fun a => (py.prediction a.payload).any (!·.featureLeakageChecked)).map Artifact.id
  have hinterval := hparsed.countP_eq fun p => p.confidenceInterval.isSome
  have hgaps := (hparsed.filter fun p => p.confidenceInterval.isNone).map fun p => pointForecast p.modelId
  unfold checkPrediction
  dsimp only
  simp only [← nil_iff hrows, ← nil_iff hinvalid, ← hinterval, ← hrows.length_eq]
  split
  · exact .refl _
  · have hsplit {rows rows' : List Artifact} {ids ids' : List String} (hrows : rows.Perm rows') (hids : ids.Perm ids') :
        Matched (Retold py points) (rows.map (fun a => invalidPrediction a.id) ++ if ids = [] then [] else [leakageUnchecked py ids])
          (rows'.map (fun a => invalidPrediction a.id) ++ if ids' = [] then [] else [leakageUnchecked py ids']) := by
      intro ch hch
      obtain hch | hch := mem_append.mp hch
      · exact ⟨ch, mem_append_left _ ((hrows.map _).subset hch), .refl py points ch⟩
      · by_cases hnil : ids = []
        · rw [if_pos hnil] at hch
          cases hch
        · rw [if_neg hnil] at hch
          refine ⟨leakageUnchecked py ids', mem_append_right _ ?_, ?_⟩
          · rw [if_neg fun hnil' => hnil ((nil_iff hids).mpr hnil')]
            exact mem_singleton_self _
          · rw [mem_singleton.mp hch]
            exact alike_listed hids rfl rfl rfl rfl rfl rfl rfl
    refine ⟨rfl, ?_, rfl, hgaps, hsplit hinvalid hunchecked, hsplit hinvalid.symm hunchecked.symm⟩
    simp only [nil_iff hunchecked]

theorem checkScopeCoverage_alike (scope : Option RequiredScope) (h : artifacts.Perm artifacts') :
    (checkScopeCoverage py artifacts scope).Alike py points (checkScopeCoverage py artifacts' scope) := by
  have hrows := ofType_perm "evidence" h
  have hdimensions : ∀ dimension, dimension ∈ groupedBy py (ofType "evidence" artifacts') ↔
      dimension ∈ groupedBy py (ofType "evidence" artifacts) :=
    fun dimension => ((hrows.filterMap _).flatMap_right _).mem_iff.symm
  unfold checkScopeCoverage
  dsimp only
  simp only [← nil_iff hrows, hdimensions]
  exact .refl _

end Checks

/-! Runs of all the checks, and what the two signals make of them. -/

section Runs
variable {py : Runtime} {points : List Measurement} {outcomes outcomes' : List CheckOutcome}

def Checked.challenges (r : Checked) : List Challenge := r.outcomes.flatMap CheckOutcome.challenges

/-- What the signals are computed from when the store lists these artifacts. -/
def caseOf (py : Runtime) (now : Int) (stored : List Artifact) (scope : Option RequiredScope)
    (alternatives : List AlternativeHypothesis) : Case :=
  let r := runChecks py now stored scope
  { outcomes := r.outcomes, gaps := r.gaps, alternatives, claimType := r.claimType }

theorem claimTypeFor_perm {artifacts artifacts' : List Artifact} (h : artifacts.Perm artifacts') :
    claimTypeFor artifacts' = claimTypeFor artifacts := by
  unfold claimTypeFor
  dsimp only
  simp only [(h.map Artifact.artifactType).mem_iff]

theorem allChecks_alike (py : Runtime) (now : Int) (scope : Option RequiredScope) {artifacts artifacts' : List Artifact}
    (h : artifacts.Perm artifacts') :
    List.Forall₂ (CheckOutcome.Alike py (measurements py artifacts)) (allChecks py now artifacts scope)
      (allChecks py now artifacts' scope) :=
  .cons (checkEvidence_alike now h) (.cons (checkProvenance_alike h) (.cons (checkContradiction_alike h)
    (.cons (checkCausal_alike h) (.cons (checkPrediction_alike h) (.cons (checkScopeCoverage_alike scope h) .nil)))))

section
variable (h : List.Forall₂ (CheckOutcome.Alike py points) outcomes outcomes')
include h

theorem live_alike :
    List.Forall₂ (CheckOutcome.Alike py points) (outcomes.filter fun oc => oc.status ≠ .notApplicable)
      (outcomes'.filter fun oc => oc.status ≠ .notApplicable) := by
  induction h with
  | nil => exact .nil
  | @cons oc oc' outcomes outcomes' halike _ ih =>
    rw [filter_cons, filter_cons, halike.status]
    split
    · exact .cons halike ih
    · exact ih

theorem readings_alike :
    (outcomes'.flatMap fun oc => oc.scoreSignals.rows) = outcomes.flatMap fun oc => oc.scoreSignals.rows := by
  induction h with
  | nil => rfl
  | cons halike _ ih => rw [flatMap_cons, flatMap_cons, halike.scoreSignals, ih]

theorem gaps_alike : (outcomes.flatMap CheckOutcome.gaps).Perm (outcomes'.flatMap CheckOutcome.gaps) := by
  induction h with
  | nil => exact .refl _
  | cons halike _ ih =>
    rw [flatMap_cons, flatMap_cons]
    exact halike.gaps.append ih

theorem challenges_alike :
    Matched (Retold py points) (outcomes.flatMap CheckOutcome.challenges) (outcomes'.flatMap CheckOutcome.challenges) ∧
      Matched (Retold py points) (outcomes'.flatMap CheckOutcome.challenges) (outcomes.flatMap CheckOutcome.challenges) := by
  have happend {cs cs' ds ds' : List Challenge} (hcs : Matched (Retold py points) cs cs') (hds : Matched (Retold py points) ds ds') :
      Matched (Retold py points) (cs ++ ds) (cs' ++ ds') := by
    intro ch hch
    obtain hch | hch := mem_append.mp hch
    · obtain ⟨ch', hch', halike⟩ := hcs ch hch
      exact ⟨ch', mem_append_left _ hch', halike⟩
    · obtain ⟨ch', hch', halike⟩ := hds ch hch
      exact ⟨ch', mem_append_right _ hch', halike⟩
  induction h with
  | nil => exact ⟨matched_of_subset (List.Subset.refl _), matched_of_subset (List.Subset.refl _)⟩
  | cons halike _ ih =>
    rw [flatMap_cons, flatMap_cons]
    exact ⟨happend halike.matched ih.1, happend halike.matched' ih.2⟩

end

theorem hasBlocking_alike {oc oc' : CheckOutcome} (h : oc.Alike py points oc') : oc'.hasBlocking = oc.hasBlocking := by
  have hof {cs cs' : List Challenge} (hm : Matched (Retold py points) cs cs') (hblocking : cs.any (·.severity = .blocking) = true) :
      cs'.any (·.severity = .blocking) = true := by
    obtain ⟨ch, hch, hseverity⟩ := List.any_eq_true.mp hblocking
    obtain ⟨ch', hch', halike⟩ := hm ch hch
    exact List.any_eq_true.mpr ⟨ch', hch', by rw [halike.severity]; exact hseverity⟩
  exact Bool.eq_iff_iff.mpr ⟨hof h.matched', hof h.matched⟩

theorem scoreTrust_alike (rounding : Decimals.Rounding) (alternatives : List AlternativeHypothesis) (claimType : ClaimType)
    (h : List.Forall₂ (CheckOutcome.Alike py points) outcomes outcomes') :
    scoreTrust rounding outcomes' alternatives claimType = scoreTrust rounding outcomes alternatives claimType := by
  have hblocking : outcomes'.any CheckOutcome.hasBlocking = outcomes.any CheckOutcome.hasBlocking := by
    induction h with
    | nil => rfl
    | cons halike _ ih => rw [any_cons, any_cons, hasBlocking_alike halike, ih]
  unfold scoreTrust signalsOf capped
  rw [readings_alike h, hblocking]

theorem forall_alike {P : CheckOutcome → Prop} (hP : ∀ oc oc', oc.Alike py points oc' → (P oc' ↔ P oc))
    (h : List.Forall₂ (CheckOutcome.Alike py points) outcomes outcomes') : (∀ oc ∈ outcomes', P oc) ↔ ∀ oc ∈ outcomes, P oc := by
  induction h with
  | nil => exact Iff.rfl
  | cons halike _ ih => rw [forall_mem_cons, forall_mem_cons, hP _ _ halike, ih]

theorem forall_challenge_alike {P : Challenge → Prop} (hP : ∀ ch ch', ch.Alike (Retold py points) ch' → (P ch' → P ch))
    {oc oc' : CheckOutcome} (h : oc.Alike py points oc') : (∀ ch ∈ oc'.challenges, P ch) ↔ ∀ ch ∈ oc.challenges, P ch := by
  constructor
  · intro hall ch hch
    obtain ⟨ch', hch', halike⟩ := h.matched ch hch
    exact hP ch ch' halike (hall ch' hch')
  · intro hall ch hch
    obtain ⟨ch', hch', halike⟩ := h.matched' ch hch
    exact hP ch ch' halike (hall ch' hch')

section
variable (alternatives : List AlternativeHypothesis) (trustScore : ℚ)
  (h : List.Forall₂ (CheckOutcome.Alike py points) outcomes outcomes')
include alternatives trustScore h

/-- The verdict tells outcomes apart only by what they have in common. -/
theorem cleared_alike {gaps gaps' : List EvidenceGap} (hgaps : gaps.Perm gaps') :
    (outcomes'.flatMap CheckOutcome.rejections = [] ↔ outcomes.flatMap CheckOutcome.rejections = []) ∧
      (objections outcomes' gaps' alternatives trustScore = [] ↔ objections outcomes gaps alternatives trustScore = []) := by
  have hsound := forall_alike
    (P := fun oc => oc.status ≠ .rejected ∧ ∀ ch ∈ oc.challenges, ch.severity ≠ .blocking) (fun oc oc' halike => by
      rw [halike.status, forall_challenge_alike (fun ch ch' hch hne => hch.severity ▸ hne) halike]) h
  have hunwarned := forall_alike (P := fun oc => ∀ ch ∈ oc.challenges, ch.unsettled = false) (fun oc oc' halike =>
    forall_challenge_alike (fun ch ch' hch hsettled => by
      rw [Challenge.unsettled, hch.category, hch.severity] at hsettled
      exact hsettled) halike) h
  have hsupplied := forall_alike (P := fun oc => oc.lacking = false) (fun oc oc' halike => by
    rw [CheckOutcome.lacking, CheckOutcome.lacking, halike.status]) h
  have hmethodical := forall_alike (P := fun oc => oc.methodologicalIssues = []) (fun oc oc' halike => by
    rw [halike.issues]) h
  have hissues : (∃ oc ∈ outcomes', oc.methodologicalIssues ≠ []) ↔ ∃ oc ∈ outcomes, oc.methodologicalIssues ≠ [] := by
    rw [← not_iff_not]
    simpa using hmethodical
  have hbacked : (∀ g ∈ gaps', g.blocking = false) ↔ ∀ g ∈ gaps, g.blocking = false :=
    forall_congr' fun g => imp_congr_left hgaps.mem_iff.symm
  constructor
  · rw [rejections_eq_nil_iff, rejections_eq_nil_iff, hsound]
  · rw [objections_eq_nil_iff, objections_eq_nil_iff, hbacked, hunwarned, hsupplied, hissues]

theorem decideVerdict_alike {gaps gaps' : List EvidenceGap} (hgaps : gaps.Perm gaps') :
    (decideVerdict outcomes' gaps' alternatives trustScore).verdict =
      (decideVerdict outcomes gaps alternatives trustScore).verdict := by
  obtain ⟨hrejections, hobjections⟩ := cleared_alike alternatives trustScore h hgaps
  unfold decideVerdict
  dsimp only
  simp only [ne_eq, hrejections, hobjections]
  split
  · rfl
  · split <;> rfl

end

/-- Neither signal depends on the order of the artifacts, nor do the gaps and the challenges, but for which
row of a series gives the date in the text of its conflict. -/
theorem order_independent (py : Runtime) (now : Int) {stored stored' : List Artifact} (h : stored.Perm stored')
    (scope : Option RequiredScope) (alternatives : List AlternativeHypothesis) :
    (caseOf py now stored' scope alternatives).verdict py.rounding =
        (caseOf py now stored scope alternatives).verdict py.rounding ∧
      (caseOf py now stored' scope alternatives).trust py.rounding =
        (caseOf py now stored scope alternatives).trust py.rounding ∧
      (∀ g, g ∈ (runChecks py now stored' scope).gaps ↔ g ∈ (runChecks py now stored scope).gaps) ∧
      Matched (Retold py (measurements py (claims stored))) (runChecks py now stored scope).challenges
        (runChecks py now stored' scope).challenges ∧
      Matched (Retold py (measurements py (claims stored))) (runChecks py now stored' scope).challenges
        (runChecks py now stored scope).challenges := by
  have hclaims : (claims stored).Perm (claims stored') := h.filter _
  have hlive := live_alike (allChecks_alike py now scope hclaims)
  have hgaps := gaps_alike hlive
  have htrust : (caseOf py now stored' scope alternatives).trust py.rounding =
      (caseOf py now stored scope alternatives).trust py.rounding := by
    unfold Case.trust caseOf runChecks
    dsimp only
    rw [claimTypeFor_perm hclaims]
    exact scoreTrust_alike py.rounding alternatives _ hlive
  refine ⟨?_, htrust, fun g => hgaps.mem_iff.symm, challenges_alike hlive⟩
  unfold Case.verdict
  rw [htrust]
  exact decideVerdict_alike alternatives _ hlive hgaps

end Runs

/-! A text that ends in a list cannot end in the spread of a series. -/

theorem last_append (before : String) {after : String} {c : Char} (h : after.toList.getLast? = some c) :
    (before ++ after).toList.getLast? = some c := by
  rw [String.toList_append, List.getLast?_append, h]
  rfl

theorem listed_last (py : Runtime) (before : String) (ids : List String) :
    (before ++ py.listed ids).toList.getLast? = some ']' :=
  last_append before (last_append _ rfl)

theorem apart_last (before : String) (values : List ℚ) : (before ++ apartText values).toList.getLast? = some ')' := by
  unfold apartText
  exact last_append before (last_append _ rfl)

theorem sameText_sourceConflict {py : Runtime} {m m' : Measurement} {points points' : List Measurement}
    (h : SameWords py (sourceConflict (m :: points)) (sourceConflict (m' :: points'))) :
    (sourceConflict (m' :: points')).description = (sourceConflict (m :: points)).description := by
  obtain hsame | ⟨before, ids, ids', -, htext, -⟩ := h
  · exact hsame
  · have hlast := apart_last (m.metricId ++ " on " ++ m.periodStart.date.isoformat) ((m :: points).map Measurement.value)
    rw [← conflictText, ← sourceConflict_description, htext, listed_last] at hlast
    cases hlast

section Categories
variable (py : Runtime) {artifacts : List Artifact} {ch : Challenge}

theorem checkEvidence_category {now : Int} (h : ch ∈ (checkEvidence py now artifacts).challenges) :
    ch.category ≠ "source" := by
  unfold checkEvidence evidenceQuality at h
  dsimp only at h
  split_ifs at h <;> simp only [not_mem_nil, mem_singleton] at h <;> simp [h, unparsedEvidence, staleRows]

theorem checkProvenance_category (h : ch ∈ (checkProvenance py artifacts).challenges) : ch.category ≠ "source" := by
  unfold checkProvenance at h
  dsimp only at h
  split_ifs at h <;> simp only [not_mem_nil, mem_singleton] at h
  simp [h, missingProvenance]

theorem checkCausal_category (h : ch ∈ (checkCausal py artifacts).challenges) : ch.category ≠ "source" := by
  unfold checkCausal at h
  dsimp only at h
  split at h
  · cases h
  · obtain ⟨a, -, h⟩ := mem_flatMap.mp h
    unfold causalChallenges at h
    split at h
    · simp [mem_singleton.mp h, invalidCausal]
    · split_ifs at h <;> simp only [not_mem_nil, mem_singleton] at h
      simp [h, weaklyRefuted]

theorem checkPrediction_category (h : ch ∈ (checkPrediction py artifacts).challenges) : ch.category ≠ "source" := by
  unfold checkPrediction at h
  dsimp only at h
  split at h
  · cases h
  · obtain h | h := mem_append.mp h
    · obtain ⟨a, -, rfl⟩ := List.mem_map.mp h
      simp [invalidPrediction]
    · split_ifs at h <;> simp only [not_mem_nil, mem_singleton] at h
      simp [h, leakageUnchecked]

theorem checkScopeCoverage_challenges (scope : Option RequiredScope) :
    (checkScopeCoverage py artifacts scope).challenges = [] := by
  unfold checkScopeCoverage
  dsimp only
  split_ifs <;> rfl

end Categories

theorem mem_of_source {py : Runtime} {now : Int} {stored : List Artifact} {scope : Option RequiredScope} {ch : Challenge}
    (h : ch ∈ (runChecks py now stored scope).challenges) (hsource : ch.category = "source") :
    ch ∈ (conflicts (measurements py (claims stored))).map Prod.snd := by
  obtain ⟨oc, hoc, hch⟩ := mem_flatMap.mp h
  have hchecked := (mem_filter.mp hoc).1
  simp only [allChecks, mem_cons, not_mem_nil, or_false] at hchecked
  obtain rfl | rfl | rfl | rfl | rfl | rfl := hchecked
  · exact absurd hsource (checkEvidence_category py hch)
  · exact absurd hsource (checkProvenance_category py hch)
  · exact hch
  · exact absurd hsource (checkCausal_category py hch)
  · exact absurd hsource (checkPrediction_category py hch)
  · rw [checkScopeCoverage_challenges] at hch
    cases hch

theorem mem_challenges_of_conflict {py : Runtime} {now : Int} {stored : List Artifact} {scope : Option RequiredScope}
    {ch : Challenge} (h : ch ∈ (conflicts (measurements py (claims stored))).map Prod.snd) :
    ch ∈ (runChecks py now stored scope).challenges := by
  refine mem_flatMap.mpr ⟨checkContradiction py (claims stored), mem_filter.mpr ⟨?_, ?_⟩, h⟩
  · simp [allChecks]
  · simp [checkContradiction, contradiction]

theorem mem_conflicts {points : List Measurement} {k : SeriesKey} (hkey : ∀ m ∈ points, m.key = k) (hne : points ≠ [])
    {ch : Challenge} : ch ∈ (conflicts points).map Prod.snd ↔ conflicting points = true ∧ ch = sourceConflict points := by
  have hgroup : Dict.group Measurement.key points k = points :=
    filter_eq_self.mpr fun m hm => decide_eq_true (hkey m hm)
  unfold conflicts
  rw [List.map_map]
  constructor
  · intro h
    obtain ⟨⟨k', g⟩, hg, rfl⟩ := List.mem_map.mp h
    obtain ⟨hmem, hconflicting⟩ := mem_filter.mp hg
    obtain ⟨rfl, hg⟩ := (Dict.mem_grouped Measurement.key).mp hmem
    obtain ⟨m, hm⟩ := exists_mem_of_ne_nil _ hg
    obtain ⟨hm, hmk⟩ := mem_filter.mp hm
    have hk : k' = k := (of_decide_eq_true hmk).symm.trans (hkey m hm)
    rw [hk, hgroup] at hconflicting ⊢
    exact ⟨hconflicting, rfl⟩
  · intro ⟨hconflicting, hch⟩
    refine List.mem_map.mpr ⟨(k, points), mem_filter.mpr ⟨?_, hconflicting⟩, hch.symm⟩
    exact (Dict.mem_grouped Measurement.key).mpr ⟨hgroup.symm, hne⟩

/-! Two rows of one midnight, which stands under two dates. -/

theorem evening_range : 66600000000 < 86400000000 := by decide

/-- Midnight of 1 September in India, and the same moment in UTC. -/
def inIndia : Datetime where
  date := ⟨2026, 9, 1, Date.year_2026_range, Date.september_range, Date.first_of_september⟩
  tzinfo := some ⟨19800000000, by decide⟩

def inUtc : Datetime where
  date := ⟨2026, 8, 31, Date.year_2026_range, Date.august_range, by decide⟩
  time := ⟨66600000000, evening_range⟩
  tzinfo := some .utc

def datetimeOf (text : String) : Option Datetime :=
  if text = "2026-09-01T00:00:00+05:30" then some inIndia
  else if text = "2026-08-31T18:30:00+00:00" then some inUtc
  else none

/-- A row without dimensions. -/
def evidenceOf (payload : Payload) : Option EvidenceArtifact :=
  match payload.get? "metric_id", payload.get? "period_start", payload.get? "value" with
  | some (.str metricId), some (.str start), some (.num value) =>
    (datetimeOf start).map fun periodStart =>
      { metricId, periodStart, periodEnd := periodStart, value := some value, fetchedAt := periodStart }
  | _, _, _ => none

def evidenceOnly : Runtime where
  evidence := evidenceOf
  causal _ := none
  prediction _ := none
  repr := Agent.quoted
  rounding := Decimals.nearest

def netProfitRow (id start : String) (value : Int) : Artifact where
  id := id
  workspaceId := "w"
  artifactType := "evidence"
  classification := .factual
  evidenceIds := [id]
  createdAt := 0
  payload := ⟨[("metric_id", .str "net_profit"), ("grain", .str "day"), ("as_of", .str start),
    ("period_start", .str start), ("period_end", .str start), ("value", .num value), ("source_query", .obj []),
    ("fetched_at", .str start)], by simp⟩

def midnights : List Artifact :=
  [netProfitRow "a" "2026-09-01T00:00:00+05:30" 100, netProfitRow "b" "2026-08-31T18:30:00+00:00" 200]

def measured (id : String) (start : Datetime) (value : ℚ) : Measurement where
  id := id
  metricId := "net_profit"
  periodStart := start
  periodEnd := start
  dimensions := .empty
  value := value

def indian : Measurement := measured "a" inIndia 100

def utc : Measurement := measured "b" inUtc 200

theorem measurements_midnights : measurements evidenceOnly (claims midnights) = [indian, utc] ∧
    measurements evidenceOnly (claims midnights.reverse) = [utc, indian] := ⟨rfl, rfl⟩

theorem measured_key (id : String) (start : Datetime) (value : ℚ) :
    (measured id start value).key = ("net_profit", moment start, moment start, []) := by
  simp [Measurement.key, measured, Keyed.Dict.empty]

theorem utc_key : utc.key = indian.key := by
  rw [utc, indian, measured_key, measured_key]
  decide

theorem conflicting_midnights : conflicting [indian, utc] = true := by
  have hlow : lowest [indian.value, utc.value] = 100 :=
    lowest_eq (by simp [indian, measured]) (by norm_num [indian, utc, measured])
  have hhigh : highest [indian.value, utc.value] = 200 :=
    highest_eq (by simp [utc, measured]) (by norm_num [indian, utc, measured])
  have hapart : Policy.contradictionTolerance < disagreement [indian.value, utc.value] := by
    rw [disagreement_iff, hlow, hhigh, apart_of_pos (by norm_num)]
    norm_num
  simpa [conflicting] using hapart

/-- The text of the conflict names the date of the row that is listed first. -/
theorem midnights_conflict : midnights.Perm midnights.reverse ∧
    ¬Matched (SameWords evidenceOnly) (runChecks evidenceOnly 0 midnights none).challenges
      (runChecks evidenceOnly 0 midnights.reverse none).challenges := by
  refine ⟨(reverse_perm midnights).symm, fun h => ?_⟩
  have hkeys : ∀ m ∈ [indian, utc], m.key = indian.key := by simp [utc_key]
  have hkeys' : ∀ m ∈ [utc, indian], m.key = indian.key := by simp [utc_key]
  have hmem : sourceConflict [indian, utc] ∈ (runChecks evidenceOnly 0 midnights none).challenges := by
    apply mem_challenges_of_conflict
    rw [measurements_midnights.1]
    exact (mem_conflicts hkeys (cons_ne_nil _ _)).mpr ⟨conflicting_midnights, rfl⟩
  obtain ⟨ch', hch', halike⟩ := h _ hmem
  have hsource := mem_of_source hch' halike.category
  rw [measurements_midnights.2] at hsource
  obtain ⟨-, rfl⟩ := (mem_conflicts hkeys' (cons_ne_nil _ _)).mp hsource
  have htext := sameText_sourceConflict halike.description
  rw [sourceConflict_description, sourceConflict_description, conflictText_perm (List.Perm.swap indian utc []),
    conflictText, conflictText, String.append_left_inj] at htext
  revert htext
  decide

/-- The two signals are the same for both lists. -/
theorem midnights_signals : midnights.Perm midnights.reverse ∧
    (caseOf evidenceOnly 0 midnights.reverse none []).verdict evidenceOnly.rounding =
      (caseOf evidenceOnly 0 midnights none []).verdict evidenceOnly.rounding ∧
    (caseOf evidenceOnly 0 midnights.reverse none []).trust evidenceOnly.rounding =
      (caseOf evidenceOnly 0 midnights none []).trust evidenceOnly.rounding := by
  have h := order_independent evidenceOnly 0 (reverse_perm midnights).symm none []
  exact ⟨(reverse_perm midnights).symm, h.1, h.2.1⟩

end SelericSwarm.Validation
