import SelericSwarm.EvidenceTruth
import SelericSwarm.MetaInsights
import Mathlib.Data.Finset.Card
import Mathlib.Order.Interval.Finset.Nat

/-! Which evidence may be compared: the grain gate looks at the periods that are declared, the values
are of the days that were queried. -/
open List

namespace SelericSwarm.Agent
open Keyed

/-- What the gate reads of an artifact. -/
structure PeriodFact where
  metricId : String
  grain : String
  periodStart : Datetime
  periodEnd : Datetime

def EvidenceArtifact.fact (e : EvidenceArtifact) : PeriodFact where
  metricId := e.metricId
  grain := e.grain
  periodStart := e.periodStart
  periodEnd := e.periodEnd

def InsightsEvidence.fact (e : InsightsEvidence) : PeriodFact where
  metricId := e.metricId
  grain := e.grain
  periodStart := e.periodStart
  periodEnd := e.periodEnd

/-! `grain.py`. -/

def allowedSpanDays : String → Option (Int × Int)
  | "day" => some (1, 1)
  | "week" => some (7, 7)
  | "month" => some (28, 31)
  | _ => none

/-- `period_span_days`. -/
def PeriodFact.span (e : PeriodFact) : Int := (e.periodEnd.date.toordinal : Int) - e.periodStart.date.toordinal + 1

def printed (items : List String) : String := "[" ++ ", ".intercalate items ++ "]"

def quoted (text : String) : String := "'" ++ text ++ "'"

/-- An artifact whose span its grain does not allow. -/
def misfit (grain : String) (allowed : Int × Int) (e : PeriodFact) : Option String :=
  if allowed.1 ≤ e.span ∧ e.span ≤ allowed.2 then none
  else
    let expected := if allowed.1 = allowed.2 then toString allowed.1
      else toString allowed.1 ++ "-" ++ toString allowed.2
    some (e.metricId ++ " declares grain=" ++ quoted grain ++ " but its period " ++ e.periodStart.date.isoformat ++ ".." ++
      e.periodEnd.date.isoformat ++ " spans " ++ toString e.span ++ " day(s), expected " ++ expected ++
      "; this is a window aggregate labelled as " ++ grain ++ "-grain, not a " ++ grain ++ " series")

/-- The reason why a set cannot be compared, if there is one. -/
def validateGrainSet (evidence : List PeriodFact) : Option String :=
  match CatalogueSnapshot.sorted (evidence.map PeriodFact.grain) with
  | [] => none
  | grain :: others =>
    if others ≠ [] then
      some ("evidence set mixes grains " ++ printed ((grain :: others).map quoted) ++ "; one call must use a single grain")
    else
      match (allowedSpanDays grain).bind fun allowed => evidence.findSome? (misfit grain allowed) with
      | some reason => some reason
      | none =>
        let spans := (evidence.map PeriodFact.span).eraseDups.mergeSort fun a b => decide (a ≤ b)
        if 1 < spans.length then
          some ("evidence periods span " ++ printed (spans.map toString) ++ " days; an observation can only be " ++
            "compared against a baseline covering the same number of days")
        else none

/-! What the calls write. -/

/-- A call with the answer it gets. -/
inductive PeriodCall where
  | metrics (q : Query) (args : MetricsArgs) (answer : Answer)
  | insights (call : InsightsCall) (answer : InsightsAnswer)

/-- An artifact with the queried window, and with the date of its bucket where its row has one. -/
structure Reading where
  window : Datetime × Datetime
  bucket : Option Date
  fact : PeriodFact

section Readings
variable (env : Environment) (deps : SelericDeps)

def Query.readings (q : Query) (args : MetricsArgs) (answer : Answer) (row : Row) : List Reading :=
  (((measured q.metricId row).bind (q.evidence env deps args answer row)).map fun evidence =>
    { window := (q.periodStart, q.periodEnd)
      bucket := ((q.bucketDate row).bind env.fromisoformat).map Datetime.date
      fact := evidence.fact : Reading }).toList

def InsightsCall.readings (call : InsightsCall) (answer : InsightsAnswer) (row : Row) : List Reading :=
  ((call.bucket env row).elim [] fun period =>
    (writeMeasures env deps call answer row period (call.measures answer)).1).map fun insight =>
      { window := (call.periodStart, call.periodEnd)
        bucket := ((call.bucketDate row).bind env.fromisoformat).map Datetime.date
        fact := insight.evidence.fact : Reading }

def PeriodCall.readings : PeriodCall → List Reading
  | .metrics q args answer => answer.rows.flatMap (q.readings env deps args answer)
  | .insights call answer => answer.rows.flatMap (call.readings env deps answer)

end Readings

/-! The gateway: the value of a bucket is that of its days inside the queried window. -/

def bucketDays (grain : String) (start : Date) : Finset Nat :=
  if grain = "week" then Finset.Icc start.toordinal (start.toordinal + 6)
  else if grain = "month" then
    Finset.Icc start.toordinal (start.toordinal + (monthrange start.year start.month - start.day))
  else {start.toordinal}

namespace Reading

def windowDays (r : Reading) : Finset Nat := Finset.Icc r.window.1.date.toordinal r.window.2.date.toordinal

/-- Without a date it is the window that the row stands for. -/
def whole (r : Reading) : Finset Nat := r.bucket.elim r.windowDays (bucketDays r.fact.grain)

/-- The days whose data the value is of. -/
def days (r : Reading) : Finset Nat := r.whole ∩ r.windowDays

/-- The days of the bucket that the window cuts off. -/
def lost (r : Reading) : Finset Nat := r.whole \ r.windowDays

theorem card_days (r : Reading) : r.days.card + r.lost.card = r.whole.card := Finset.card_inter_add_card_sdiff _ _

end Reading

/-! What the declared periods are. -/

variable {env : Environment} {deps : SelericDeps}

/-- A period ends with its bucket, wherever in the calendar that is. -/
theorem bucketEnd_days {start stop : Datetime} {grain : String} (h : bucketEnd start grain = some stop) :
    Finset.Icc start.date.toordinal stop.date.toordinal = bucketDays grain start.date := by
  unfold bucketEnd at h
  rw [bucketDays]
  split at h
  · next hweek =>
    obtain ⟨date, hdate, rfl⟩ := Option.map_eq_some_iff.mp h
    rw [if_pos hweek, Date.addDays_toordinal 6 hdate]
  · next hweek =>
    rw [if_neg hweek]
    split at h
    · next hmonth =>
      obtain rfl := Option.some.inj h
      rw [if_pos hmonth, Date.monthEnd_toordinal]
    · next hmonth =>
      obtain rfl := Option.some.inj h
      rw [if_neg hmonth, Finset.Icc_self]

def PeriodFact.days (e : PeriodFact) : Finset Nat := Finset.Icc e.periodStart.date.toordinal e.periodEnd.date.toordinal

theorem Query.bucket_days {q : Query} {row : Row} {start stop : Datetime} (h : q.bucket env row = some (start, stop)) :
    Finset.Icc start.date.toordinal stop.date.toordinal =
      (((q.bucketDate row).bind env.fromisoformat).map Datetime.date).elim
        (Finset.Icc q.periodStart.date.toordinal q.periodEnd.date.toordinal) (bucketDays q.grain) := by
  unfold Query.bucket at h
  cases hdate : q.bucketDate row with
  | none =>
    rw [hdate] at h
    obtain ⟨rfl, rfl⟩ := Prod.mk.inj (Option.some.inj h)
    rfl
  | some date =>
    rw [hdate] at h
    obtain ⟨parsed, hparsed, h⟩ := Option.bind_eq_some_iff.mp h
    obtain ⟨last, hlast, h⟩ := Option.map_eq_some_iff.mp h
    obtain ⟨rfl, rfl⟩ := Prod.mk.inj h
    rw [bucketEnd_days hlast, Option.bind_some, hparsed]
    rfl

theorem InsightsCall.bucket_days {call : InsightsCall} {row : Row} {period : Datetime × Datetime}
    (h : call.bucket env row = some period) :
    Finset.Icc period.1.date.toordinal period.2.date.toordinal =
      (((call.bucketDate row).bind env.fromisoformat).map Datetime.date).elim
        (Finset.Icc call.periodStart.date.toordinal call.periodEnd.date.toordinal) (bucketDays call.grain) := by
  unfold InsightsCall.bucket at h
  cases hdate : call.bucketDate row with
  | none =>
    rw [hdate] at h
    obtain rfl := Option.some.inj h
    rfl
  | some date =>
    rw [hdate] at h
    obtain ⟨parsed, hparsed, h⟩ := Option.bind_eq_some_iff.mp h
    obtain ⟨last, hlast, rfl⟩ := Option.map_eq_some_iff.mp h
    rw [bucketEnd_days hlast, Option.bind_some, hparsed]
    rfl

/-- The value of this metric in the row is what the artifact reports. -/
def InsightsEvidence.Measures (env : Environment) (measures : List String) (row : Row) (e : InsightsEvidence) : Prop :=
  e.metricId ∈ measures ∧ env.float (dimensionValue row e.metricId) = some e.value

theorem mem_writeMeasures {call : InsightsCall} {answer : InsightsAnswer} {row : Row} {period : Datetime × Datetime}
    {insight : Insight} (measures : List String) :
    insight ∈ (writeMeasures env deps call answer row period measures).1 →
      insight.evidence.grain = call.grain ∧ insight.evidence.periodStart = period.1 ∧
        insight.evidence.periodEnd = period.2 ∧ insight.evidence.Measures env measures row := by
  induction measures with
  | nil =>
    intro h
    cases h
  | cons measure measures ih =>
    intro h
    have hlater : insight ∈ (writeMeasures env deps call answer row period measures).1 → _ :=
      fun h => (ih h).imp_right fun h => h.imp_right fun h => h.imp_right fun h => h.imp_left (mem_cons_of_mem measure)
    rw [writeMeasures] at h
    split at h
    · exact hlater h
    · split at h
      · cases h
      · next evidence hevidence =>
        obtain rfl | h := mem_cons.mp h
        · obtain ⟨value, hvalue, hevidence⟩ := Option.bind_eq_some_iff.mp hevidence
          dsimp only at hevidence
          split at hevidence
          · obtain rfl := Option.some.inj hevidence
            exact ⟨rfl, rfl, rfl, mem_cons_self, hvalue⟩
          · cases hevidence
        · exact hlater h

theorem PeriodCall.readings_whole {call : PeriodCall} {r : Reading} (h : r ∈ call.readings env deps) :
    r.fact.days = r.whole := by
  cases call with
  | metrics q args answer =>
    obtain ⟨row, -, h⟩ := mem_flatMap.mp h
    obtain ⟨evidence, hevidence, rfl⟩ := Option.map_eq_some_iff.mp (Option.mem_toList.mp h)
    obtain ⟨value, -, hevidence⟩ := Option.bind_eq_some_iff.mp hevidence
    unfold Query.evidence at hevidence
    obtain ⟨number, -, hevidence⟩ := Option.bind_eq_some_iff.mp hevidence
    obtain ⟨⟨start, stop⟩, hbucket, hevidence⟩ := Option.bind_eq_some_iff.mp hevidence
    dsimp only at hevidence
    split at hevidence
    · obtain rfl := Option.some.inj hevidence
      exact Query.bucket_days hbucket
    · cases hevidence
  | insights call answer =>
    obtain ⟨row, -, h⟩ := mem_flatMap.mp h
    obtain ⟨insight, hinsight, rfl⟩ := mem_map.mp h
    cases hbucket : call.bucket env row with
    | none =>
      rw [hbucket] at hinsight
      cases hinsight
    | some period =>
      rw [hbucket] at hinsight
      obtain ⟨hgrain, hstart, hend, -⟩ := mem_writeMeasures _ hinsight
      have hwhole := InsightsCall.bucket_days hbucket
      rw [← hstart, ← hend, ← hgrain] at hwhole
      exact hwhole

/-! The tools write nothing else. -/

/-- An artifact that one of the rows stands for. -/
def Recorded (readings : List Reading) (artifact : Artifact) : Prop :=
  ∃ r ∈ readings, ∃ evidence, artifact.payload = .evidence evidence ∧ r.fact = evidence.fact

section Recorded
variable {q : Query} {args : MetricsArgs} {answer : Answer} {m m' : Mission} {key : String} {artifact : Artifact}

theorem cachedMetricsQuery_artifacts (m : Mission) (args : MetricsArgs) :
    (cachedMetricsQuery env m args).2.artifacts = m.artifacts := by
  obtain ⟨answer, -, he⟩ | ⟨-, ⟨-, counts, he⟩ | ⟨-, reason, counts, he⟩⟩ := cachedMetricsQuery_cases env m args
  all_goals rw [he]

theorem fetch_artifacts (q : Query) (m : Mission) : (fetch env deps q m).2.artifacts = m.artifacts := by
  unfold fetch
  dsimp only
  split
  · exact (cachedMetricsQuery_artifacts _ _).trans (cachedMetricsQuery_artifacts _ _)
  · exact cachedMetricsQuery_artifacts _ _

theorem noRowsResult_artifacts (q : Query) (filters : List Filter) (m : Mission) :
    (noRowsResult env q filters m).2.artifacts = m.artifacts := by
  unfold noRowsResult suggestCloseValues
  dsimp only
  split
  · rfl
  · split
    all_goals exact cachedMetricsQuery_artifacts _ _

theorem writeRow_recorded {row : Row} (h : (writeRow env deps q args answer row m).2.artifacts.get? key = some artifact) :
    m.artifacts.get? key = some artifact ∨ Recorded (q.readings env deps args answer row) artifact := by
  unfold writeRow at h
  split at h
  · exact Or.inl h
  next value hvalue =>
    split at h
    · exact Or.inl h
    next evidence hevidence =>
      dsimp only at h
      split at h
      · exact Or.inl h
      next m' hput =>
        obtain ⟨-, rfl⟩ := Mission.put_cases hput
        dsimp only at h
        rw [Table.get?_put] at h
        split at h
        · obtain rfl := Option.some.inj h
          refine Or.inr ⟨{
            window := (q.periodStart, q.periodEnd)
            bucket := ((q.bucketDate row).bind env.fromisoformat).map Datetime.date
            fact := evidence.fact }, Option.mem_toList.mpr ?_, evidence, rfl, rfl⟩
          rw [hvalue, Option.bind_some, hevidence]
          rfl
        · exact Or.inl h

theorem Recorded.mono {readings readings' : List Reading} (h : Recorded readings artifact) (hsub : readings ⊆ readings') :
    Recorded readings' artifact := by
  obtain ⟨r, hr, hevidence⟩ := h
  exact ⟨r, hsub hr, hevidence⟩

theorem writeRows_recorded (rows : List Row) : ∀ m : Mission,
    (writeRows env deps q args answer rows m).2.artifacts.get? key = some artifact →
    m.artifacts.get? key = some artifact ∨ Recorded (rows.flatMap (q.readings env deps args answer)) artifact := by
  induction rows with
  | nil => exact fun _ h => Or.inl h
  | cons row rows ih =>
    intro m h
    rw [flatMap_cons]
    have hfirst : ∀ {artifact : Artifact}, (writeRow env deps q args answer row m).2.artifacts.get? key = some artifact → _ :=
      writeRow_recorded
    rw [writeRows] at h
    split at h
    · next m₁ hrow =>
      rw [hrow] at hfirst
      exact (hfirst h).imp id fun hrecorded => hrecorded.mono (subset_append_left _ _)
    · next written m₁ hrow =>
      rw [hrow] at hfirst
      obtain h | hrecorded := ih m₁ h
      · exact (hfirst h).imp id fun hrecorded => hrecorded.mono (subset_append_left _ _)
      · exact Or.inr (hrecorded.mono (subset_append_right _ _))

theorem writeEvidence_recorded (h : (writeEvidence env deps q args answer m).2.artifacts.get? key = some artifact) :
    m.artifacts.get? key = some artifact ∨ Recorded (answer.rows.flatMap (q.readings env deps args answer)) artifact := by
  have hrows : (writeEvidence env deps q args answer m).2 = (writeRows env deps q args answer answer.rows m).2 := by
    unfold writeEvidence
    split <;> next hwritten => rw [hwritten]
  rw [hrows] at h
  exact writeRows_recorded answer.rows m h

theorem respond_recorded {fetched : Fetched} (h : (respond env deps q fetched m).2.artifacts.get? key = some artifact) :
    m.artifacts.get? key = some artifact ∨
      Recorded (fetched.answer.rows.flatMap (q.readings env deps fetched.args fetched.answer)) artifact := by
  unfold respond at h
  dsimp only at h
  split at h
  · exact Or.inl h
  · split at h
    · exact Or.inl h
    · split at h
      · rw [noRowsResult_artifacts] at h
        exact Or.inl h
      · unfold cachedResult at h
        split at h
        · split at h
          all_goals exact Or.inl h
        · cases hwritten : writeEvidence env deps q fetched.args fetched.answer m with
          | mk result m' =>
            have hrecorded : (writeEvidence env deps q fetched.args fetched.answer m).2.artifacts.get? key =
              some artifact → _ := writeEvidence_recorded
            rw [hwritten] at h hrecorded
            cases result with
            | none => exact hrecorded h
            | some result => exact hrecorded h

/-- What `query_metrics` adds to the store are readings of its answer. -/
theorem queryMetrics_recorded {call : QueryMetricsArgs}
    (h : (queryMetrics env deps call m).2.artifacts.get? key = some artifact) :
    m.artifacts.get? key = some artifact ∨ ∃ q, prepare env deps call = .ok q ∧
      Recorded ((PeriodCall.metrics q (fetch env deps q m).1.args (fetch env deps q m).1.answer).readings env deps) artifact := by
  unfold queryMetrics at h
  split at h
  · exact Or.inl h
  next q hprepare =>
    have hfetched : (respond env deps q (fetch env deps q m).1 (fetch env deps q m).2).2.artifacts.get? key =
      some artifact := h
    obtain hstored | hrecorded := respond_recorded hfetched
    · rw [fetch_artifacts] at hstored
      exact Or.inl hstored
    · exact Or.inr ⟨q, hprepare, hrecorded⟩

/-- The calls of a mission, one after another. -/
def queryAll (env : Environment) (deps : SelericDeps) (calls : List QueryMetricsArgs) (m : Mission) : Mission :=
  calls.foldl (fun m call => (queryMetrics env deps call m).2) m

/-- The artifact stands for a row that one of the calls was answered with, and declares the whole bucket of the row. -/
def FromCalls (env : Environment) (deps : SelericDeps) (calls : List QueryMetricsArgs) (m : Mission)
    (artifact : Artifact) : Prop :=
  ∃ before call after q, calls = before ++ call :: after ∧ prepare env deps call = .ok q ∧
    ∃ r ∈ (PeriodCall.metrics q (fetch env deps q (queryAll env deps before m)).1.args
        (fetch env deps q (queryAll env deps before m)).1.answer).readings env deps,
      ∃ evidence, artifact.payload = .evidence evidence ∧ evidence.fact = r.fact ∧ evidence.fact.days = r.whole

theorem recorded_of_calls (calls : List QueryMetricsArgs) : ∀ m : Mission,
    (queryAll env deps calls m).artifacts.get? key = some artifact →
      m.artifacts.get? key = some artifact ∨ FromCalls env deps calls m artifact := by
  induction calls with
  | nil => exact fun _ h => Or.inl h
  | cons call calls ih =>
    intro m h
    obtain hfirst | ⟨before, later, after, q, rfl, hrest⟩ := ih _ h
    · obtain hstored | ⟨q, hprepare, r, hr, evidence, hevidence, hfact⟩ := queryMetrics_recorded hfirst
      · exact Or.inl hstored
      · exact Or.inr ⟨[], call, calls, q, rfl, hprepare, r, hr, evidence, hevidence, hfact.symm,
          (congrArg PeriodFact.days hfact).symm.trans (PeriodCall.readings_whole hr)⟩
    · exact Or.inr ⟨call :: before, later, after, q, rfl, hrest⟩

theorem one_hexadecimal : '1' ∈ "0123456789abcdef".toList := by simp

/-- The gateway of one brand, with an id for each of two artifacts. -/
def twoIds : Environment := { oneBrand with uuid := fun n => if n = 0 then .nil else .repeated '1' one_hexadecimal }

def twoSales : List QueryMetricsArgs := [salesOf "acm3", { metricId := "sales", limit := some (some 5) }]

theorem recorded_of_calls_twoSales : ∃ artifact artifact',
    (queryAll twoIds oneBrandDeps twoSales freshMission).artifacts.get? (newId "artifact" (twoIds.uuid 0)) =
        some artifact ∧
      (queryAll twoIds oneBrandDeps twoSales freshMission).artifacts.get? (newId "artifact" (twoIds.uuid 1)) =
        some artifact' ∧
      FromCalls twoIds oneBrandDeps twoSales freshMission artifact ∧
        FromCalls twoIds oneBrandDeps twoSales freshMission artifact' := by
  have hstored : ((queryAll twoIds oneBrandDeps twoSales freshMission).artifacts.get?
      (newId "artifact" (twoIds.uuid 0))).isSome = true := by decide +kernel
  have hstored' : ((queryAll twoIds oneBrandDeps twoSales freshMission).artifacts.get?
      (newId "artifact" (twoIds.uuid 1))).isSome = true := by decide +kernel
  obtain ⟨artifact, h⟩ := Option.isSome_iff_exists.mp hstored
  obtain ⟨artifact', h'⟩ := Option.isSome_iff_exists.mp hstored'
  exact ⟨artifact, artifact', h, h', (recorded_of_calls twoSales freshMission h).resolve_left nofun,
    (recorded_of_calls twoSales freshMission h').resolve_left nofun⟩

theorem writeInsights_recorded {call : InsightsCall} {answer : InsightsAnswer} {insight : Insight} (rows : List Row) :
    insight ∈ (writeInsights env deps call answer rows).1 →
      ∃ row ∈ rows, ∃ r ∈ call.readings env deps answer row, r.fact = insight.evidence.fact ∧
        insight.evidence.Measures env (call.measures answer) row := by
  induction rows with
  | nil =>
    intro h
    cases h
  | cons row rows ih =>
    intro h
    rw [writeInsights] at h
    cases hbucket : call.bucket env row with
    | none =>
      rw [hbucket] at h
      cases h
    | some period =>
      have hfirst : insight ∈ (writeMeasures env deps call answer row period (call.measures answer)).1 →
          ∃ row' ∈ row :: rows, ∃ r ∈ call.readings env deps answer row', r.fact = insight.evidence.fact ∧
            insight.evidence.Measures env (call.measures answer) row' := by
        intro hmem
        refine ⟨row, mem_cons_self, _, mem_map.mpr ⟨insight, ?_, rfl⟩, rfl,
          (mem_writeMeasures _ hmem).2.2.2⟩
        rw [hbucket]
        exact hmem
      rw [hbucket] at h
      dsimp only at h
      cases hwritten : writeMeasures env deps call answer row period (call.measures answer) with
      | mk written completed =>
        rw [hwritten] at h hfirst
        cases completed with
        | false => exact hfirst h
        | true =>
          obtain h | h := mem_append.mp h
          · exact hfirst h
          · obtain ⟨row', hrow, hrest⟩ := ih h
            exact ⟨row', mem_cons_of_mem row hrow, hrest⟩

/-- What `query_meta_insights` writes reports a value of one row of its answer, for the whole bucket of that row. -/
theorem queryMetaInsights_recorded {call : InsightsCall} {answer : InsightsAnswer} {issued : Nat} {e : InsightsEvidence}
    (h : e ∈ (queryMetaInsights env deps call (.answer answer) issued).2) :
    ∃ row ∈ answer.rows, ∃ r ∈ call.readings env deps answer row, r.fact = e.fact ∧ e.fact.days = r.whole ∧
      e.Measures env (call.measures answer) row := by
  have hwritten : e ∈ (writeInsights env deps call answer answer.rows).1.map Insight.evidence := by
    unfold queryMetaInsights at h
    dsimp only at h
    split at h
    · cases h
    · split at h
      · cases h
      · split at h
        · cases h
        · split at h
          · next heq => rwa [heq]
          · cases h
          · next heq => rwa [heq]
  obtain ⟨insight, hinsight, rfl⟩ := mem_map.mp hwritten
  obtain ⟨row, hrow, r, hr, hfact, hmeasures⟩ := writeInsights_recorded answer.rows hinsight
  have hread : r ∈ (PeriodCall.insights call answer).readings env deps := mem_flatMap.mpr ⟨row, hrow, hr⟩
  exact ⟨row, hrow, r, hr, hfact, hfact ▸ PeriodCall.readings_whole hread, hmeasures⟩

end Recorded

/-! What the gate lets through. -/

theorem card_period (e : PeriodFact) : e.days.card = e.span.toNat := by
  rw [PeriodFact.days, Nat.card_Icc, PeriodFact.span]
  omega

theorem length_distinct {α : Type} [DecidableEq α] (xs : List α) :
    xs.eraseDups.length ≤ 1 ↔ ∀ x ∈ xs, ∀ y ∈ xs, x = y := by
  cases xs with
  | nil => simp
  | cons x xs =>
    rw [eraseDups_cons, length_cons]
    constructor
    · intro h
      have hothers : (xs.filter fun b => !b == x).eraseDups = [] := eq_nil_of_length_eq_zero (by omega)
      have heq : ∀ y ∈ x :: xs, y = x := by
        intro y hy
        by_contra hne
        have hmem : y ∈ (xs.filter fun b => !b == x).eraseDups := by
          rw [mem_eraseDups, mem_filter]
          exact ⟨(mem_cons.mp hy).resolve_left hne, by simpa using hne⟩
        rw [hothers] at hmem
        cases hmem
      intro y hy z hz
      rw [heq y hy, heq z hz]
    · intro h
      have hothers : (xs.filter fun b => !b == x) = [] := by
        refine filter_eq_nil_iff.mpr fun y hy => ?_
        simp [h y (mem_cons_of_mem x hy) x mem_cons_self]
      simp [hothers]

/-- Artifacts of one grain, each of a length its grain allows, and all of one length. -/
structure Comparable (evidence : List PeriodFact) : Prop where
  grain : ∀ e ∈ evidence, ∀ e' ∈ evidence, e.grain = e'.grain
  allowed : ∀ e ∈ evidence, ∀ range ∈ allowedSpanDays e.grain, range.1 ≤ e.span ∧ e.span ≤ range.2
  span : ∀ e ∈ evidence, ∀ e' ∈ evidence, e.span = e'.span

theorem misfit_eq_none {grain : String} {range : Int × Int} {e : PeriodFact} :
    misfit grain range e = none ↔ range.1 ≤ e.span ∧ e.span ≤ range.2 := by
  unfold misfit
  split
  · next h => simp [h]
  · next h => simp [h]

/-- What passes depends on the members of the set alone. -/
theorem validateGrainSet_eq_none {evidence : List PeriodFact} : validateGrainSet evidence = none ↔ Comparable evidence := by
  have hgrains : ∀ grain, grain ∈ CatalogueSnapshot.sorted (evidence.map PeriodFact.grain) ↔
      ∃ e ∈ evidence, e.grain = grain := by
    intro grain
    rw [CatalogueSnapshot.sorted, mem_mergeSort, mem_eraseDups, mem_map]
  have hone : (CatalogueSnapshot.sorted (evidence.map PeriodFact.grain)).length ≤ 1 ↔
      ∀ e ∈ evidence, ∀ e' ∈ evidence, e.grain = e'.grain := by
    rw [CatalogueSnapshot.sorted, length_mergeSort, length_distinct]
    simp only [forall_mem_map]
  have hspans : ((evidence.map PeriodFact.span).eraseDups.mergeSort fun a b => decide (a ≤ b)).length ≤ 1 ↔
      ∀ e ∈ evidence, ∀ e' ∈ evidence, e.span = e'.span := by
    rw [length_mergeSort, length_distinct]
    simp only [forall_mem_map]
  unfold validateGrainSet
  split
  · next hnone =>
    have hempty : ∀ e ∈ evidence, False := by
      intro e he
      have hmem := (hgrains e.grain).mpr ⟨e, he, rfl⟩
      rw [hnone] at hmem
      cases hmem
    exact ⟨fun _ => ⟨fun e he => (hempty e he).elim, fun e he => (hempty e he).elim, fun e he => (hempty e he).elim⟩,
      fun _ => rfl⟩
  · next grain others hsorted =>
    rw [hsorted] at hgrains hone
    split
    · next hmixed =>
      refine ⟨fun h => (Option.some_ne_none _ h).elim, fun h => absurd (hone.mpr h.grain) ?_⟩
      have hpos := length_pos_iff.mpr hmixed
      rw [length_cons]
      omega
    · next hsame =>
      obtain rfl := not_not.mp hsame
      have hgrain : ∀ e ∈ evidence, e.grain = grain :=
        fun e he => mem_singleton.mp ((hgrains e.grain).mpr ⟨e, he, rfl⟩)
      have hmisfit : ((allowedSpanDays grain).bind fun allowed => evidence.findSome? (misfit grain allowed)) = none ↔
          ∀ e ∈ evidence, ∀ range ∈ allowedSpanDays e.grain, range.1 ≤ e.span ∧ e.span ≤ range.2 := by
        cases hallowed : allowedSpanDays grain with
        | none =>
          refine ⟨fun _ e he range hrange => ?_, fun _ => rfl⟩
          rw [hgrain e he, hallowed] at hrange
          cases hrange
        | some range =>
          rw [Option.bind_some, List.findSome?_eq_none_iff]
          constructor
          · intro h e he range' hrange'
            rw [hgrain e he, hallowed] at hrange'
            obtain rfl := Option.some.inj hrange'
            exact misfit_eq_none.mp (h e he)
          · intro h e he
            exact misfit_eq_none.mpr (h e he range (by rw [hgrain e he, hallowed]; rfl))
      split
      · next hreason =>
        refine ⟨fun h => (Option.some_ne_none _ h).elim, fun h => ?_⟩
        rw [hmisfit.mpr h.allowed] at hreason
        cases hreason
      · next hfit =>
        dsimp only
        split
        · next hlong => exact ⟨fun h => (Option.some_ne_none _ h).elim, fun h => absurd (hspans.mpr h.span) (by omega)⟩
        · next hshort =>
          exact ⟨fun _ => ⟨hone.mp (by simp), hmisfit.mp hfit, hspans.mp (by omega)⟩, fun _ => rfl⟩

theorem span_eq_of_validate {evidence : List PeriodFact} (h : validateGrainSet evidence = none) {e e' : PeriodFact}
    (he : e ∈ evidence) (he' : e' ∈ evidence) : e.span = e'.span :=
  (validateGrainSet_eq_none.mp h).span e he e' he'

theorem Comparable.subset {evidence part : List PeriodFact} (h : Comparable evidence) (hsub : part ⊆ evidence) :
    Comparable part where
  grain e he e' he' := h.grain e (hsub he) e' (hsub he')
  allowed e he := h.allowed e (hsub he)
  span e he e' he' := h.span e (hsub he) e' (hsub he')

/-- The artifacts of a set that passes are of equally many days of data exactly when the windows of their
queries cut equally many days off their buckets; above all, when every bucket lies in the window of its query. -/
theorem comparable_iff (env : Environment) (deps : SelericDeps) (calls : List PeriodCall) (set : List Reading)
    (hset : ∀ r ∈ set, ∃ call ∈ calls, r ∈ call.readings env deps) :
    ((validateGrainSet (set.map Reading.fact) = none → ∀ r ∈ set, ∀ r' ∈ set, r.days.card = r'.days.card) ↔
      (validateGrainSet (set.map Reading.fact) = none → ∀ r ∈ set, ∀ r' ∈ set, r.lost.card = r'.lost.card)) ∧
    ((∀ r ∈ set, r.whole ⊆ r.windowDays) → validateGrainSet (set.map Reading.fact) = none →
      ∀ r ∈ set, ∀ r' ∈ set, r.days.card = r'.days.card) := by
  have hwhole : ∀ r ∈ set, r.days.card + r.lost.card = r.fact.span.toNat := by
    intro r hr
    obtain ⟨call, -, hcall⟩ := hset r hr
    rw [r.card_days, ← PeriodCall.readings_whole hcall, card_period]
  have hspan : validateGrainSet (set.map Reading.fact) = none → ∀ r ∈ set, ∀ r' ∈ set, r.fact.span = r'.fact.span :=
    fun hvalid r hr r' hr' => span_eq_of_validate hvalid (mem_map_of_mem hr) (mem_map_of_mem hr')
  have hiff : validateGrainSet (set.map Reading.fact) = none → ∀ r ∈ set, ∀ r' ∈ set,
      (r.days.card = r'.days.card ↔ r.lost.card = r'.lost.card) := by
    intro hvalid r hr r' hr'
    have hsum := hwhole r hr
    have hsum' := hwhole r' hr'
    rw [hspan hvalid r hr r' hr'] at hsum
    omega
  refine ⟨forall_congr' fun hvalid => ?_, fun hinside hvalid r hr r' hr' => (hiff hvalid r hr r' hr').mpr ?_⟩
  · exact forall₂_congr fun r hr => forall₂_congr fun r' hr' => hiff hvalid r hr r' hr'
  · rw [Reading.lost, Reading.lost, Finset.sdiff_eq_empty_iff_subset.mpr (hinside r hr),
      Finset.sdiff_eq_empty_iff_subset.mpr (hinside r' hr')]

/-! Whole weeks, and one in a window that begins on its Friday. -/

def september (day : Nat) (h : 1 ≤ day ∧ day ≤ 30 := by decide) : Datetime where
  date := ⟨2026, 9, day, Date.year_2026_range, Date.september_range, h⟩

/-- The gateway is not asked here. -/
def weekDates : Environment where
  lower s := s
  text := plainText
  float := some
  fromisoformat text :=
    if text = "2026-09-07" then some (september 7)
    else if text = "2026-09-14" then some (september 14)
    else if text = "2026-09-21" then some (september 21)
    else none
  closeMatches _ _ := []
  uuid _ := .nil
  metricsQuery _ _ := .null
  metricsDrilldown _ _ := .null

def weekOf (mondays : List String) (periodStart periodEnd : Datetime) : PeriodCall :=
  let q : Query :=
    { metricId := "sales", dimensions := .empty, grain := "week", periodStart, periodEnd, order := none, limit := none }
  .metrics q (q.args weekDates oneBrandDeps [])
    { rows := mondays.map fun monday =>
        (Dict.empty.set "sales" (.num 5)).set "orders.created.week" (.str (monday ++ "T00:00:00.000")) }

def fullWeek : PeriodCall := weekOf ["2026-09-07"] (september 7) (september 13)

def twoWeeks : PeriodCall := weekOf ["2026-09-14", "2026-09-21"] (september 13) (september 27)

def cutWeek : PeriodCall := weekOf ["2026-09-21"] (september 18) (september 24)

/-- The spend of a week. -/
def weeklySpend : InsightsCall where
  accountId := "act_1"
  fields := ["spend"]
  periodStart := september 7
  periodEnd := september 13

def spend : InsightsAnswer where
  rows := [Dict.empty.set "spend" (.num 5)]

theorem queryMetaInsights_recorded_weeklySpend :
    ∃ e ∈ (queryMetaInsights weekDates oneBrandDeps weeklySpend (.answer spend) 0).2,
      ∃ row ∈ spend.rows, ∃ r ∈ weeklySpend.readings weekDates oneBrandDeps spend row,
        r.fact = e.fact ∧ e.fact.days = r.whole ∧ e.Measures weekDates (weeklySpend.measures spend) row := by
  have hsome : (queryMetaInsights weekDates oneBrandDeps weeklySpend (.answer spend) 0).2 ≠ [] := by
    intro hnil
    have hlength := congrArg List.length hnil
    revert hlength
    decide +kernel
  obtain ⟨e, he⟩ := exists_mem_of_ne_nil _ hsome
  exact ⟨e, he, queryMetaInsights_recorded he⟩

def readingsOf (calls : List PeriodCall) : List Reading := calls.flatMap (·.readings weekDates oneBrandDeps)

theorem readingsOf_set (calls : List PeriodCall) (r : Reading) (hr : r ∈ readingsOf calls) :
    ∃ call ∈ calls, r ∈ call.readings weekDates oneBrandDeps :=
  mem_flatMap.mp hr

/-- Three weeks from two calls, each of seven days of data. -/
theorem fullWeeks_comparable : (readingsOf [fullWeek, twoWeeks]).length = 3 ∧
    ∀ r ∈ readingsOf [fullWeek, twoWeeks], ∀ r' ∈ readingsOf [fullWeek, twoWeeks], r.days.card = r'.days.card := by
  have hinside : ((readingsOf [fullWeek, twoWeeks]).all fun r => decide (r.whole ⊆ r.windowDays)) = true := by decide
  refine ⟨by decide, (comparable_iff weekDates oneBrandDeps [fullWeek, twoWeeks] (readingsOf [fullWeek, twoWeeks])
    (readingsOf_set _)).2 ?_ (by decide +kernel)⟩
  intro r hr
  exact of_decide_eq_true (all_eq_true.mp hinside r hr)

/-- Seven days and four pass as two weeks. -/
theorem cutWeek_not_comparable : ¬(validateGrainSet ((readingsOf [fullWeek, cutWeek]).map Reading.fact) = none →
    ∀ r ∈ readingsOf [fullWeek, cutWeek], ∀ r' ∈ readingsOf [fullWeek, cutWeek], r.days.card = r'.days.card) := by
  intro h
  have hvalid : validateGrainSet ((readingsOf [fullWeek, cutWeek]).map Reading.fact) = none := by decide +kernel
  have hcards : ((readingsOf [fullWeek, cutWeek]).any fun r => (readingsOf [fullWeek, cutWeek]).any fun r' =>
      decide (r.days.card ≠ r'.days.card)) = true := by decide
  obtain ⟨r, hr, hany⟩ := any_eq_true.mp hcards
  obtain ⟨r', hr', hne⟩ := any_eq_true.mp hany
  exact of_decide_eq_true hne (h hvalid r hr r' hr')

end SelericSwarm.Agent
