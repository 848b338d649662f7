import SelericSwarm.PeriodComparison

/-! A comparison read from the other side, and from ids in another order. -/
namespace SelericSwarm.Analytics
open Keyed List

def HasValue (read : List (String × EvidenceArtifact)) (period : Period) (k : PairKey) : Prop :=
  ∃ r v, latest read period k = some r ∧ r.2.value = some v

/-- A finding that subtracts the last reading of the second period from that of the first. -/
def Compares (read : List (String × EvidenceArtifact)) (periodA periodB : Period) (k : PairKey) (f : Finding) : Prop :=
  ∃ ra rb va vb, latest read periodA k = some ra ∧ latest read periodB k = some rb ∧ ra.2.value = some va ∧
    rb.2.value = some vb ∧ f.evidenceIds = [ra.1, rb.1] ∧ f.metrics.get? "delta" = some (va - vb) ∧
      f.metrics.get? "value_a" = some va ∧ f.metrics.get? "value_b" = some vb

/-- The same two readings, the other way round. -/
structure Swapped (f f' : Finding) : Prop where
  evidenceIds : f'.evidenceIds = f.evidenceIds.reverse
  delta : f'.metrics.get? "delta" = (f.metrics.get? "delta").map fun delta => -delta
  valueA : f'.metrics.get? "value_a" = f.metrics.get? "value_b"
  valueB : f'.metrics.get? "value_b" = f.metrics.get? "value_a"

/-- No two readings of one period and key. -/
def Unrepeated (read : List (String × EvidenceArtifact)) : Prop :=
  ∀ (period : Period) (k : PairKey), (read.filter fun r => r.2.period = period && readingKey r = k).length ≤ 1

theorem PeriodDelta.get?_metrics (d : PeriodDelta) (a b : ℚ) : (d.metrics a b).get? "delta" = some d.delta ∧
    (d.metrics a b).get? "value_a" = some a ∧ (d.metrics a b).get? "value_b" = some b := by
  unfold PeriodDelta.metrics
  dsimp only
  split
  all_goals simp [Dict.get?_set]

section Findings
variable {read read' : List (String × EvidenceArtifact)} {periodA periodB : Period} {k : PairKey} {f f' : Finding}

theorem Reports.compares (h : Reports read periodA periodB k f) : Compares read periodA periodB k f := by
  obtain ⟨ra, rb, hra, hrb, hfinding⟩ := h
  obtain ⟨va, vb, d, hva, hvb, -, hdelta, hids, hmetrics⟩ := finding_of_delta hfinding
  obtain ⟨hget, hgetA, hgetB⟩ := d.get?_metrics va vb
  rw [← hmetrics] at hget hgetA hgetB
  rw [hdelta] at hget
  exact ⟨ra, rb, va, vb, hra, hrb, hva, hvb, hids, hget, hgetA, hgetB⟩

/-- There is a finding for each key with a value on both sides. -/
theorem exists_reports_iff : (∃ f, Reports read periodA periodB k f) ↔
    HasValue read periodA k ∧ HasValue read periodB k := by
  constructor
  · intro ⟨f, hf⟩
    obtain ⟨ra, rb, va, vb, hra, hrb, hva, hvb, -⟩ := hf.compares
    exact ⟨⟨ra, va, hra, hva⟩, ⟨rb, vb, hrb, hvb⟩⟩
  · intro ⟨⟨ra, va, hra, hva⟩, ⟨rb, vb, hrb, hvb⟩⟩
    have ha : (ra.2.point ra.1).value = some va := hva
    have hb : (rb.2.point rb.1).value = some vb := hvb
    have hdelta : delta? (ra.2.point ra.1) (rb.2.point rb.1) =
        some ⟨ra.2.metricId, ra.2.dimensions, va - vb, ra.2.point ra.1, rb.2.point rb.1⟩ := by
      rw [delta?, ha, hb]
      rfl
    have hfinding : ∃ f, (delta? (ra.2.point ra.1) (rb.2.point rb.1)).bind PeriodDelta.finding? = some f := by
      rw [hdelta, Option.bind_some, PeriodDelta.finding?]
      dsimp only
      rw [ha, hb]
      exact ⟨_, rfl⟩
    obtain ⟨f, hf⟩ := hfinding
    exact ⟨f, ra, rb, hra, hrb, hf⟩

theorem Compares.swapped (hlatest : ∀ period k, latest read' period k = latest read period k)
    (h : Compares read periodA periodB k f) (h' : Compares read' periodB periodA k f') : Swapped f f' := by
  obtain ⟨ra, rb, va, vb, hra, hrb, hva, hvb, hids, hdelta, hgetA, hgetB⟩ := h
  obtain ⟨rb', ra', vb', va', hrb', hra', hvb', hva', hids', hdelta', hgetB', hgetA'⟩ := h'
  rw [hlatest, hra] at hra'
  rw [hlatest, hrb] at hrb'
  cases hra'
  cases hrb'
  rw [hva] at hva'
  rw [hvb] at hvb'
  cases hva'
  cases hvb'
  constructor
  · rw [hids, hids']
    rfl
  · rw [hdelta, hdelta', Option.map_some, neg_sub]
  · rw [hgetB, hgetB']
  · rw [hgetA, hgetA']

theorem latest_of_filter (h : ∀ period : Period, (read'.filter fun r => r.2.period = period) =
    read.filter fun r => r.2.period = period) (period : Period) (k : PairKey) :
    latest read' period k = latest read period k := by
  have hsplit : ∀ rs : List (String × EvidenceArtifact), (rs.filter fun r => r.2.period = period && readingKey r = k) =
      (rs.filter fun r => r.2.period = period).filter fun r => readingKey r = k := by
    intro rs
    rw [List.filter_filter]
    congr 1
    funext r
    exact Bool.and_comm _ _
  rw [latest, latest, hsplit, hsplit, h]

theorem latest_of_unrepeated (hperm : read.Perm read') (h : Unrepeated read) (period : Period) (k : PairKey) :
    latest read' period k = latest read period k := by
  have hfiltered := hperm.filter fun r => r.2.period = period && readingKey r = k
  have hshort := h period k
  rw [latest, latest]
  cases hread : read.filter fun r => r.2.period = period && readingKey r = k with
  | nil =>
    rw [hread] at hfiltered
    rw [hfiltered.symm.eq_nil]
  | cons r rest =>
    rw [hread] at hfiltered hshort
    have hrest : rest = [] := eq_nil_of_length_eq_zero (by rw [length_cons] at hshort; omega)
    rw [hrest] at hfiltered ⊢
    rw [hfiltered.symm.eq_singleton]

theorem reports_congr (hlatest : ∀ period k, latest read' period k = latest read period k) :
    Reports read' periodA periodB k f ↔ Reports read periodA periodB k f := by
  rw [Reports, Reports, hlatest, hlatest]

end Findings

/-! Which of two periods comes first. -/

theorem eraseDups_of_all {α : Type} [BEq α] [LawfulBEq α] {x : α} {xs : List α} (hne : xs ≠ []) (h : ∀ y ∈ xs, y = x) :
    xs.eraseDups = [x] := by
  cases xs with
  | nil => exact absurd rfl hne
  | cons y ys =>
    have hothers : (ys.filter fun z => !z == y) = [] := by
      refine filter_eq_nil_iff.mpr fun z hz => ?_
      simp [h z (mem_cons_of_mem y hz), h y mem_cons_self]
    rw [eraseDups_cons, hothers, h y mem_cons_self]
    rfl

theorem periodsOf_of_first {evidence : List EvidenceArtifact} {p q : Period} (hpq : p ≠ q)
    (hmem : ∀ period, period ∈ evidence.map EvidenceArtifact.period ↔ period = p ∨ period = q)
    (hfirst : evidence.head?.map EvidenceArtifact.period = some p) : periodsOf evidence = [p, q] := by
  cases evidence with
  | nil => cases hfirst
  | cons e evidence =>
    have he : e.period = p := Option.some.inj hfirst
    have hothers : ((evidence.map EvidenceArtifact.period).filter fun r => !r == p).eraseDups = [q] := by
      apply eraseDups_of_all
      · have hq := (hmem q).mpr (Or.inr rfl)
        rw [map_cons, he, mem_cons] at hq
        apply ne_nil_of_mem (a := q)
        exact mem_filter.mpr ⟨hq.resolve_left hpq.symm, by simpa using hpq.symm⟩
      · intro r hr
        obtain ⟨hr, hne⟩ := mem_filter.mp hr
        have hcases := (hmem r).mp (mem_cons_of_mem _ hr)
        exact hcases.resolve_left (by simpa using hne)
    rw [periodsOf, map_cons, he, eraseDups_cons, hothers]

theorem mem_of_periodsOf {evidence : List EvidenceArtifact} {p q : Period} (h : periodsOf evidence = [p, q])
    (period : Period) : period ∈ evidence.map EvidenceArtifact.period ↔ period = p ∨ period = q := by
  rw [← mem_eraseDups, ← periodsOf, h, mem_cons, mem_singleton]

/-! The laws. -/

section Laws
variable {py : Runtime} {deps : Agent.SelericDeps} {desk : Desk} {evidenceIds : List String}
  {evidence : List EvidenceArtifact} {periodA periodB : Period}

theorem reordered {evidenceIds' : List String} {p q : Period}
    (hgate : gatedEvidence py desk.artifacts evidenceIds = .ok evidence)
    (hperiods : periodsOf evidence = [periodA, periodB]) (hperm : evidenceIds.Perm evidenceIds')
    (hpq : p ≠ q) (hsame : ∀ period, period = periodA ∨ period = periodB ↔ period = p ∨ period = q)
    (hfirst : (readings py desk.artifacts evidenceIds').head?.map (fun r => r.2.period) = some p) :
    ∃ evidence', gatedEvidence py desk.artifacts evidenceIds' = .ok evidence' ∧ periodsOf evidence' = [p, q] := by
  obtain ⟨evidence', hgate', hperm'⟩ := gatedEvidence_perm hgate hperm
  refine ⟨evidence', hgate', periodsOf_of_first hpq ?_ ?_⟩
  · intro period
    rw [← hsame period, ← mem_of_periodsOf hperiods period]
    exact (hperm'.map _).symm.mem_iff
  · obtain ⟨-, hread, -⟩ := gatedEvidence_ok_iff.mp hgate'
    rw [← zip_eq_readings evidenceIds' evidence' hread] at hfirst
    cases evidence' with
    | nil =>
      rw [zip_nil_right] at hfirst
      cases hfirst
    | cons e rest =>
      cases evidenceIds' with
      | nil => cases hfirst
      | cons id ids => exact hfirst

/-- One finding for each key with a value in the last reading of both periods; turned round, the same keys with the
findings turned round; the same findings from ids in another order, where no key is repeated. -/
theorem comparison_laws (hgate : gatedEvidence py desk.artifacts evidenceIds = .ok evidence)
    (hperiods : periodsOf evidence = [periodA, periodB]) {result : ToolResult} {desk' : Desk}
    (hrun : comparePeriods py deps desk evidenceIds = (some result, desk')) :
    (∃ keys : List PairKey, keys.Nodup ∧
      (∀ k, k ∈ keys ↔ HasValue (readings py desk.artifacts evidenceIds) periodA k ∧
        HasValue (readings py desk.artifacts evidenceIds) periodB k) ∧
      List.Forall₂ (Compares (readings py desk.artifacts evidenceIds) periodA periodB) keys
        (desk'.findings result.artifactIds)) ∧
    (∀ evidenceIds', evidenceIds.Perm evidenceIds' →
      (∀ period : Period, ((readings py desk.artifacts evidenceIds').filter fun r => r.2.period = period) =
        (readings py desk.artifacts evidenceIds).filter fun r => r.2.period = period) →
      (readings py desk.artifacts evidenceIds').head?.map (fun r => r.2.period) = some periodB →
      ∀ result' desk'', comparePeriods py deps desk evidenceIds' = (some result', desk'') → ∀ k,
        ((∃ f ∈ desk'.findings result.artifactIds, Compares (readings py desk.artifacts evidenceIds) periodA periodB k f) ↔
          ∃ f' ∈ desk''.findings result'.artifactIds,
            Compares (readings py desk.artifacts evidenceIds') periodB periodA k f') ∧
        ∀ f f', Compares (readings py desk.artifacts evidenceIds) periodA periodB k f →
          Compares (readings py desk.artifacts evidenceIds') periodB periodA k f' → Swapped f f') ∧
    (∀ evidenceIds', evidenceIds.Perm evidenceIds' → Unrepeated (readings py desk.artifacts evidenceIds) →
      (readings py desk.artifacts evidenceIds').head?.map (fun r => r.2.period) = some periodA →
      ∀ result' desk'', comparePeriods py deps desk evidenceIds' = (some result', desk'') →
        ∀ f, f ∈ desk'.findings result.artifactIds ↔ f ∈ desk''.findings result'.artifactIds) := by
  have hne := periods_ne hperiods
  rw [comparePeriods_findings hgate hperiods hrun]
  -- a finding that compares the readings of a key is there whenever the key has values
  have hsome : ∀ (read : List (String × EvidenceArtifact)) (p q : Period) k, p ≠ q →
      ((∃ f ∈ (deltasOf p q read).filterMap PeriodDelta.finding?, Compares read p q k f) ↔
        HasValue read p k ∧ HasValue read q k) := by
    intro read p q k hpq
    constructor
    · intro ⟨f, _, ra, rb, va, vb, hra, hrb, hva, hvb, _⟩
      exact ⟨⟨ra, va, hra, hva⟩, ⟨rb, vb, hrb, hvb⟩⟩
    · intro hvalues
      obtain ⟨f, hf⟩ := exists_reports_iff.mpr hvalues
      exact ⟨f, (mem_comparisons hpq).mpr ⟨k, hf⟩, hf.compares⟩
  refine ⟨?_, ?_, ?_⟩
  · obtain ⟨keys, hnodup, hkeys, hreports⟩ := comparisons_report (readings py desk.artifacts evidenceIds) hne
    exact ⟨keys, hnodup, fun k => (hkeys k).trans exists_reports_iff, hreports.imp fun k f h => h.compares⟩
  · intro evidenceIds' hperm hfilter hfirst result' desk'' hrun' k
    obtain ⟨evidence', hgate', hperiods'⟩ := reordered hgate hperiods hperm hne.symm (fun _ => Or.comm) hfirst
    have hlatest := latest_of_filter hfilter
    rw [comparePeriods_findings hgate' hperiods' hrun', hsome _ _ _ k hne, hsome _ _ _ k hne.symm]
    have hvalue : ∀ p, HasValue (readings py desk.artifacts evidenceIds') p k ↔
        HasValue (readings py desk.artifacts evidenceIds) p k := by
      intro p
      rw [HasValue, HasValue, hlatest]
    rw [hvalue, hvalue]
    exact ⟨And.comm, fun f f' h h' => h.swapped hlatest h'⟩
  · intro evidenceIds' hperm hunrepeated hfirst result' desk'' hrun' f
    obtain ⟨evidence', hgate', hperiods'⟩ := reordered hgate hperiods hperm hne (fun _ => Iff.rfl) hfirst
    have hlatest := latest_of_unrepeated (readings_perm hperm) hunrepeated
    rw [comparePeriods_findings hgate' hperiods' hrun', mem_comparisons hne, mem_comparisons hne]
    simp only [reports_congr hlatest]

end Laws

/-! A reading, a null one that repeats it, and a reading of the day before. -/

def september (day : Nat) (h : 1 ≤ day ∧ day ≤ 30 := by decide) : Datetime where
  date := ⟨2026, 9, day, Date.year_2026_range, Date.september_range, h⟩

theorem ninth_range : 1 ≤ 9 ∧ 9 ≤ 30 := by decide

theorem tenth_range : 1 ≤ 10 ∧ 10 ≤ 30 := by decide

/-- Daily net profit. -/
def dayOf (day : Datetime) (value : Option ℚ) : EvidenceArtifact where
  metricId := "net_profit"
  grain := "day"
  periodStart := day
  periodEnd := day
  value := value

def named (read : String → Option EvidenceArtifact) : Runtime where
  evidence payload :=
    match payload with
    | .stored entries =>
      match entries.rows with
      | [(name, _)] => (read name).elim (.error "unknown") .ok
      | _ => .error "unknown"
    | .finding _ => .error "a finding"
  repr text := "'" ++ text ++ "'"
  uuid
    | 0 => .nil
    | 1 => .repeated '1' (by simp)
    | _ => .repeated '2' (by simp)

def storedAs (id : String) : Artifact where
  id := id
  workspaceId := "w1"
  artifactType := "evidence"
  payload := .stored (Dict.empty.set id .null)
  classification := .factual
  evidenceIds := ["raw"]

def twoDays : String → Option EvidenceArtifact
  | "tenth" => some (dayOf (september 10) (some 5))
  | "tenthNull" => some (dayOf (september 10) none)
  | "ninth" => some (dayOf (september 9) (some 3))
  | _ => none

def twoDaysDesk : Desk where
  artifacts := Table.empty.put (storedAs "tenth") |>.put (storedAs "tenthNull") |>.put (storedAs "ninth")
  issued := 0

/-- Without the null there is one comparison. -/
theorem twoDays_compared : ∃ result desk',
    comparePeriods (named twoDays) Agent.oneBrandDeps twoDaysDesk ["tenth", "ninth"] = (some result, desk') ∧
    ∃ keys : List PairKey, keys.Nodup ∧
      (∀ k, k ∈ keys ↔
        HasValue (readings (named twoDays) twoDaysDesk.artifacts ["tenth", "ninth"]) (dayOf (september 10) (some 5)).period k ∧
        HasValue (readings (named twoDays) twoDaysDesk.artifacts ["tenth", "ninth"]) (dayOf (september 9) (some 3)).period k) ∧
      List.Forall₂ (Compares (readings (named twoDays) twoDaysDesk.artifacts ["tenth", "ninth"])
        (dayOf (september 10) (some 5)).period (dayOf (september 9) (some 3)).period) keys
        (desk'.findings result.artifactIds) := by
  have hgate : gatedEvidence (named twoDays) twoDaysDesk.artifacts ["tenth", "ninth"] =
      .ok [dayOf (september 10) (some 5), dayOf (september 9) (some 3)] :=
    gatedEvidence_ok_iff.mpr ⟨by decide, rfl, by decide +kernel⟩
  have hends : (comparePeriods (named twoDays) Agent.oneBrandDeps twoDaysDesk ["tenth", "ninth"]).1.isSome = true := by
    decide +kernel
  cases hrun : comparePeriods (named twoDays) Agent.oneBrandDeps twoDaysDesk ["tenth", "ninth"] with
  | mk answer desk' =>
    rw [hrun] at hends
    obtain ⟨result, rfl⟩ := Option.isSome_iff_exists.mp hends
    exact ⟨result, desk', rfl, (comparison_laws hgate rfl hrun).1⟩

/-- The null that comes last leaves nothing to compare. -/
theorem nullLast_erases :
    (comparePeriods (named twoDays) Agent.oneBrandDeps twoDaysDesk ["tenth", "tenthNull", "ninth"]).1.map
      (fun result => result.artifactIds) = some [] ∧
    gatedEvidence (named twoDays) twoDaysDesk.artifacts ["tenth", "tenthNull", "ninth"] =
      .ok [dayOf (september 10) (some 5), dayOf (september 10) none, dayOf (september 9) (some 3)] ∧
    readingKey ("tenth", dayOf (september 10) (some 5)) = readingKey ("ninth", dayOf (september 9) (some 3)) :=
  ⟨by decide +kernel, gatedEvidence_ok_iff.mpr ⟨by decide, rfl, by decide +kernel⟩, rfl⟩

end SelericSwarm.Analytics
