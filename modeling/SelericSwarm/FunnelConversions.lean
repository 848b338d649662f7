import Mathlib.Data.List.Forall2
import SelericSwarm.AnomalyDetection
import SelericSwarm.ComparisonSymmetry

/-! The steps of the funnel that the evidence has, and the conversions between them. -/
namespace SelericSwarm.Analytics
open Keyed List Option

/-! `policy_config.py`. -/

def funnelSteps : List String :=
  ["metric.sessions", "metric.pdp_view_rate", "metric.atc_rate", "metric.checkout_rate", "metric.purchase_cvr"]

def warnUnknownFunnelStep : String := "policy:unknown_funnel_step"

def warnNoFunnelSteps : String := "policy:no_recognized_funnel_steps"

/-! `funnel.py`. -/

def baseStep : String := "metric.sessions"

structure StepReading where
  metricId : String
  value : Option ℚ
  ref : String

structure Step where
  metricId : String
  position : ℕ
  rate : ℚ
  raw : ℚ
  ref : String

structure Transition where
  fromStep : String
  toStep : String
  conversion : ℚ
  dropOff : ℚ
  deriving DecidableEq

def orderedSteps (readings : List StepReading) : List Step :=
  let byMetric := Dict.indexed StepReading.metricId (readings.filter fun r => r.value.isSome)
  funnelSteps.zipIdx.filterMap fun place => (byMetric.get? place.1).bind fun reading => reading.value.map fun raw =>
    { metricId := place.1
      position := place.2
      rate := if place.1 = baseStep then 1 else raw
      raw := raw
      ref := reading.ref }

def unknownSteps (readings : List StepReading) : List String :=
  Agent.CatalogueSnapshot.sorted ((readings.map StepReading.metricId).filter fun id => id ∉ funnelSteps)

def pairwise {α : Type} (items : List α) : List (α × α) := items.zip items.tail

def transition? (steps : Step × Step) : Option Transition :=
  if steps.1.rate = 0 then none
  else some {
    fromStep := steps.1.metricId
    toStep := steps.2.metricId
    conversion := steps.2.rate / steps.1.rate
    dropOff := 1 - steps.2.rate / steps.1.rate }

def transitions (steps : List Step) : List Transition := (pairwise steps).filterMap transition?

/-- `max(items, key=...)`: the first of the largest. -/
def worstTransition (items : List Transition) : Option Transition :=
  items.foldl (fun worst t => some (worst.elim t fun w => if w.dropOff < t.dropOff then t else w)) none

/-! `funnel_decomposition`. -/

def Reading.stepReading (r : Reading) : StepReading where
  metricId := r.2.metricId
  value := r.2.value
  ref := r.1

/-- `f"{q:.1%}"` -/
def percent (q : ℚ) : String := Decimals.fixed 1 (q * 100) ++ "%"

def Transition.metrics (move : Transition) : Dict String ℚ :=
  (Dict.empty.set "conversion" move.conversion).set "drop_off" move.dropOff

def funnelFinding (steps : List Step) (h : steps ≠ []) (move : Transition) : Finding where
  findingType := "funnel_decomposition"
  statement := move.fromStep ++ " -> " ++ move.toStep ++ ": " ++ percent move.conversion ++ " converted, " ++
    percent move.dropOff ++ " dropped off"
  evidenceIds := steps.map Step.ref
  metrics := move.metrics
  cited := fun hnil => h (map_eq_nil_iff.mp hnil)

def worstText (moves : List Transition) : String :=
  (worstTransition moves).elim "" fun worst =>
    "; largest drop-off " ++ percent worst.dropOff ++ " at " ++ worst.fromStep ++ " -> " ++ worst.toStep

def fewSteps (steps : List Step) : String :=
  toString steps.length ++ " recognized funnel step(s); need at least 2 to measure a conversion. Declared funnel: " ++
    ", ".intercalate funnelSteps

/-- What the tool answers, and what it leaves in the store; no answer where a write raises. -/
def funnelDecomposition (py : Runtime) (deps : Agent.SelericDeps) (desk : Desk) (evidenceIds : List String) :
    Option ToolResult × Desk :=
  match gatedEvidence py desk.artifacts evidenceIds with
  | .error refusal => (some refusal, desk)
  | .ok evidence =>
    let readings := (evidenceIds.zip evidence).map Reading.stepReading
    let steps := orderedSteps readings
    let unknown := unknownSteps readings
    let warnings := if unknown = [] then [] else [warnUnknownFunnelStep ++ ":" ++ ",".intercalate unknown]
    if hfew : steps.length < 2 then
      (some { insufficient (fewSteps steps) with warnings := warnNoFunnelSteps :: warnings }, desk)
    else
      let moves := transitions steps
      if moves = [] then (some (insufficient "no measurable transition (an upstream step is zero)"), desk)
      else
        match writeFindings py deps (moves.map (funnelFinding steps fun hnil => hfew (by rw [hnil]; exact Nat.two_pos))) desk with
        | (none, desk) => (none, desk)
        | (some ids, desk) =>
          (some (computed ids (toString moves.length ++ " funnel transition(s) across " ++ toString steps.length ++
            " step(s)" ++ worstText moves) evidenceIds warnings), desk)

/-! The steps of some readings. -/

/-- The readings of a step that have a value. -/
def usableOf (read : List Reading) (metricId : String) : List Reading :=
  read.filter fun r => r.2.metricId = metricId && r.2.value.isSome

def stepsOf (read : List Reading) : List Step := orderedSteps (read.map Reading.stepReading)

def Reading.rate (r : Reading) : ℚ := if r.2.metricId = baseStep then 1 else r.2.value.getD 0

def Reading.step (r : Reading) : Step where
  metricId := r.2.metricId
  position := funnelSteps.idxOf r.2.metricId
  rate := r.rate
  raw := r.2.value.getD 0
  ref := r.1

variable {read : List Reading}

theorem mem_usableOf {metricId : String} {r : Reading} :
    r ∈ usableOf read metricId ↔ r ∈ read ∧ r.2.metricId = metricId ∧ r.2.value.isSome = true := by
  rw [usableOf, mem_filter, Bool.and_eq_true, decide_eq_true_eq]

theorem stepsOf_eq (read : List Reading) :
    stepsOf read = funnelSteps.filterMap fun metricId => (usableOf read metricId).getLast?.map Reading.step := by
  have hplaces : funnelSteps.zipIdx = funnelSteps.map fun metricId => (metricId, funnelSteps.idxOf metricId) := by decide
  rw [stepsOf, orderedSteps, hplaces]
  rw [filterMap_map]
  refine filterMap_congr fun metricId _ => ?_
  have hused : (Dict.indexed StepReading.metricId ((read.map Reading.stepReading).filter fun r => r.value.isSome)).get?
      metricId = (usableOf read metricId).getLast?.map Reading.stepReading := by
    rw [Dict.get?_indexed, Dict.group, List.filter_filter, List.filter_map, List.getLast?_map]
    rfl
  rw [Function.comp, hused]
  cases hlast : (usableOf read metricId).getLast? with
  | none => rfl
  | some r =>
    obtain ⟨-, hmetric, hvalue⟩ := mem_usableOf.mp (mem_of_getLast? hlast)
    obtain ⟨value, hsome⟩ := isSome_iff_exists.mp hvalue
    rw [map_some, map_some, bind_some, Reading.stepReading, hsome, map_some, Reading.step,
      Reading.rate, hsome, hmetric, getD_some]

/-- The steps that have a usable reading. -/
def present (read : List Reading) : List String := funnelSteps.filter fun metricId => usableOf read metricId ≠ []

/-- Each of them with the next one. -/
def adjacent (read : List Reading) : List (String × String) := pairwise (present read)

/-- What the last usable readings of two steps say. -/
def move? (read : List Reading) (steps : String × String) : Option Transition :=
  (usableOf read steps.1).getLast?.bind fun r => (usableOf read steps.2).getLast?.bind fun r' => transition? (r.step, r'.step)

theorem forall₂_pairwise {α β : Type} {rel : α → β → Prop} {as : List α} {bs : List β} (h : List.Forall₂ rel as bs) :
    List.Forall₂ (fun p q => rel p.1 q.1 ∧ rel p.2 q.2) (pairwise as) (pairwise bs) := by
  have hzip : ∀ {as as' : List α} {bs bs' : List β}, List.Forall₂ rel as bs → List.Forall₂ rel as' bs' →
      List.Forall₂ (fun p q => rel p.1 q.1 ∧ rel p.2 q.2) (as.zip as') (bs.zip bs') := by
    intro as as' bs bs' hfirst
    induction hfirst generalizing as' bs' with
    | nil => exact fun _ => List.Forall₂.nil
    | cons hab _ ih =>
      intro hsecond
      cases hsecond with
      | nil => exact List.Forall₂.nil
      | cons hab' hrest => exact List.Forall₂.cons ⟨hab, hab'⟩ (ih hrest)
  cases h with
  | nil => exact List.Forall₂.nil
  | cons hab hrest => exact hzip (List.Forall₂.cons hab hrest) hrest

theorem filterMap_of_forall₂ {α β γ : Type} {f : α → Option γ} {g : β → Option γ} {as : List α} {bs : List β}
    (h : List.Forall₂ (fun a b => f a = g b) as bs) : as.filterMap f = bs.filterMap g := by
  induction h with
  | nil => rfl
  | cons hab _ ih => rw [filterMap_cons, filterMap_cons, hab, ih]

theorem transitions_stepsOf (read : List Reading) : transitions (stepsOf read) = (adjacent read).filterMap (move? read) := by
  have hsteps := forall₂_filterMap (fun metricId => (usableOf read metricId).getLast?.map Reading.step) funnelSteps
  rw [← stepsOf_eq] at hsteps
  have hpresent : (funnelSteps.filter fun metricId => ((usableOf read metricId).getLast?.map Reading.step).isSome) =
      present read := by
    refine filter_congr fun metricId _ => ?_
    rw [isSome_map]
    cases usableOf read metricId with
    | nil => rfl
    | cons r rest =>
      rw [List.getLast?_eq_some_getLast (cons_ne_nil r rest)]
      rfl
  rw [hpresent] at hsteps
  refine (filterMap_of_forall₂ ((forall₂_pairwise hsteps).imp ?_)).symm
  intro metrics steps ⟨⟨_, hfirst⟩, ⟨_, hsecond⟩⟩
  obtain ⟨r, hr, hstep⟩ := map_eq_some_iff.mp hfirst
  obtain ⟨r', hr', hstep'⟩ := map_eq_some_iff.mp hsecond
  rw [move?, hr, hr', bind_some, bind_some, hstep, hstep']

theorem mem_stepsOf {s : Step} : s ∈ stepsOf read ↔
    s.metricId ∈ funnelSteps ∧ ∃ r, (usableOf read s.metricId).getLast? = some r ∧ r.step = s := by
  rw [stepsOf_eq, mem_filterMap]
  constructor
  · intro ⟨metricId, hmetric, hstep⟩
    obtain ⟨r, hr, rfl⟩ := map_eq_some_iff.mp hstep
    have hsame : r.step.metricId = metricId := (mem_usableOf.mp (mem_of_getLast? hr)).2.1
    rw [hsame]
    exact ⟨hmetric, r, hr, rfl⟩
  · intro ⟨hmetric, r, hr, hstep⟩
    exact ⟨s.metricId, hmetric, by rw [hr, map_some, hstep]⟩

theorem mem_transitions {move : Transition} : move ∈ transitions (stepsOf read) ↔
    ∃ p ∈ adjacent read, ∃ r r', (usableOf read p.1).getLast? = some r ∧ (usableOf read p.2).getLast? = some r' ∧
      transition? (r.step, r'.step) = some move := by
  rw [transitions_stepsOf, mem_filterMap]
  refine exists_congr fun p => and_congr_right fun _ => ?_
  constructor
  · intro h
    obtain ⟨r, hr, h⟩ := bind_eq_some_iff.mp h
    obtain ⟨r', hr', h⟩ := bind_eq_some_iff.mp h
    exact ⟨r, r', hr, hr', h⟩
  · intro ⟨r, r', hr, hr', h⟩
    rw [move?, hr, hr', bind_some, bind_some, h]

theorem transition?_eq_some {steps : Step × Step} {move : Transition} : transition? steps = some move ↔
    steps.1.rate ≠ 0 ∧ move.fromStep = steps.1.metricId ∧ move.toStep = steps.2.metricId ∧
      move.conversion = steps.2.rate / steps.1.rate ∧ move.dropOff = 1 - steps.2.rate / steps.1.rate := by
  unfold transition?
  split
  · next hzero => exact ⟨fun h => (by cases h), fun h => absurd hzero h.1⟩
  · next hrate =>
    constructor
    · intro h
      cases h
      exact ⟨hrate, rfl, rfl, rfl, rfl⟩
    · intro ⟨_, hfrom, hto, hconversion, hdrop⟩
      cases move
      cases hfrom
      cases hto
      cases hconversion
      cases hdrop
      rfl

/-! The conversions multiply up. -/

theorem prod_transitions (steps : List Step) : ∀ (first last : Step), steps.head? = some first → steps.getLast? = some last →
    (∀ s ∈ steps, s.rate ≠ 0) → ((transitions steps).map Transition.conversion).prod = last.rate / first.rate := by
  induction steps with
  | nil =>
    intro first last hfirst
    cases hfirst
  | cons s rest ih =>
    intro first last hfirst hlast hrates
    cases hfirst
    have hrate := hrates s mem_cons_self
    cases rest with
    | nil =>
      cases hlast
      exact (div_self hrate).symm
    | cons s' rest =>
      rw [List.getLast?_cons_cons] at hlast
      have hprod := ih s' last rfl hlast fun t ht => hrates t (mem_cons_of_mem s ht)
      have hrate' := hrates s' (mem_cons_of_mem s mem_cons_self)
      have hmove : transition? (s, s') = some {
          fromStep := s.metricId
          toStep := s'.metricId
          conversion := s'.rate / s.rate
          dropOff := 1 - s'.rate / s.rate } := by rw [transition?, if_neg hrate]
      have hmoves : transitions (s :: s' :: rest) = {
          fromStep := s.metricId
          toStep := s'.metricId
          conversion := s'.rate / s.rate
          dropOff := 1 - s'.rate / s.rate } :: transitions (s' :: rest) := by
        rw [transitions, pairwise, tail_cons, zip_cons_cons, filterMap_cons_some hmove]
        rfl
      rw [hmoves, map_cons, prod_cons, hprod, div_mul_div_comm, mul_comm s.rate, mul_div_mul_left _ _ hrate']

/-! Like with like. -/

def SameSlice (e e' : EvidenceArtifact) : Prop := e.period = e'.period ∧ sortedItems e.dimensions = sortedItems e'.dimensions

theorem SameSlice.symm {e e' : EvidenceArtifact} (h : SameSlice e e') : SameSlice e' e := ⟨h.1.symm, h.2.symm⟩

theorem SameSlice.trans {e e' e'' : EvidenceArtifact} (h : SameSlice e e') (h' : SameSlice e' e'') : SameSlice e e'' :=
  ⟨h.1.trans h'.1, h.2.trans h'.2⟩

/-- What is to hold of the transitions of some ids, in whatever order they are given. -/
structure FunnelLaws (py : Runtime) (store : ArtifactStore) (evidenceIds : List String) : Prop where
  alike : ∀ evidenceIds', evidenceIds.Perm evidenceIds' → ∀ move ∈ transitions (stepsOf (readings py store evidenceIds')),
    ∃ s ∈ stepsOf (readings py store evidenceIds'), ∃ s' ∈ stepsOf (readings py store evidenceIds'),
      s.metricId = move.fromStep ∧ s'.metricId = move.toStep ∧ move.conversion = s'.rate / s.rate ∧
      ∃ e e', readAt py store s.ref = some e ∧ readAt py store s'.ref = some e' ∧ SameSlice e e'
  settled : ∀ evidenceIds', evidenceIds.Perm evidenceIds' →
    transitions (stepsOf (readings py store evidenceIds')) = transitions (stepsOf (readings py store evidenceIds))
  used : ∀ evidenceIds', evidenceIds.Perm evidenceIds' → ∀ move ∈ transitions (stepsOf (readings py store evidenceIds')),
    ∀ s ∈ stepsOf (readings py store evidenceIds'), s.metricId = move.fromStep → ∀ e, readAt py store s.ref = some e →
    ∀ metricId ∈ funnelSteps, ∀ q ∈ usableOf (readings py store evidenceIds') metricId, SameSlice q.2 e →
      ∃ t ∈ stepsOf (readings py store evidenceIds'), t.metricId = metricId ∧
        ∃ e', readAt py store t.ref = some e' ∧ SameSlice e' e
  dropOff : ∀ evidenceIds', evidenceIds.Perm evidenceIds' → ∀ move ∈ transitions (stepsOf (readings py store evidenceIds')),
    move.dropOff = 1 - move.conversion
  product : ∀ evidenceIds', evidenceIds.Perm evidenceIds' → (∀ s ∈ stepsOf (readings py store evidenceIds'), s.rate ≠ 0) →
    ∀ first last, (stepsOf (readings py store evidenceIds')).head? = some first →
      (stepsOf (readings py store evidenceIds')).getLast? = some last →
      ((transitions (stepsOf (readings py store evidenceIds'))).map Transition.conversion).prod = last.rate / first.rate

def conversion? (r r' : Reading) : Option ℚ := if r.rate = 0 then none else some (r'.rate / r.rate)

/-- The readings of adjacent steps are of one slice, agree on their conversion, and stand for their steps in that slice. -/
structure Coherent (read : List Reading) : Prop where
  alike : ∀ p ∈ adjacent read, ∀ r ∈ usableOf read p.1, r.rate ≠ 0 → ∀ r' ∈ usableOf read p.2, SameSlice r.2 r'.2
  settled : ∀ p ∈ adjacent read, ∀ r ∈ usableOf read p.1, ∀ r' ∈ usableOf read p.2, ∀ q ∈ usableOf read p.1,
    ∀ q' ∈ usableOf read p.2, conversion? r r' = conversion? q q'
  whole : ∀ p ∈ adjacent read, ∀ r ∈ usableOf read p.1, r.rate ≠ 0 → ∀ metricId ∈ funnelSteps,
    ∀ q ∈ usableOf read metricId, SameSlice q.2 r.2 → ∀ q' ∈ usableOf read metricId, SameSlice q'.2 r.2

section Laws
variable {py : Runtime} {deps : Agent.SelericDeps} {desk : Desk} {store : ArtifactStore} {evidenceIds evidenceIds' : List String}
variable {read read' : List Reading}

theorem usableOf_perm (h : read.Perm read') (metricId : String) : (usableOf read metricId).Perm (usableOf read' metricId) :=
  h.filter _

theorem adjacent_perm (h : read.Perm read') : adjacent read' = adjacent read := by
  have hpresent : present read' = present read := by
    refine filter_congr fun metricId _ => ?_
    have hnil : usableOf read' metricId = [] ↔ usableOf read metricId = [] := by
      constructor
      · intro hnone
        have hperm := usableOf_perm h metricId
        rw [hnone] at hperm
        exact hperm.eq_nil
      · intro hnone
        have hperm := usableOf_perm h metricId
        rw [hnone] at hperm
        exact hperm.symm.eq_nil
    exact decide_eq_decide.mpr (not_congr hnil)
  rw [adjacent, adjacent, hpresent]

theorem transition?_step (r r' : Reading) : transition? (r.step, r'.step) = (conversion? r r').map fun conversion =>
    { fromStep := r.2.metricId, toStep := r'.2.metricId, conversion, dropOff := 1 - conversion } := by
  rw [transition?, conversion?]
  show (if r.rate = 0 then none else _) = _
  split
  · rfl
  · rfl

/-- Readings of different steps can be made the last ones. -/
theorem exists_order (chosen : List Reading) (hchosen : ∀ r ∈ chosen, r ∈ readings py store evidenceIds ∧ r.2.value.isSome)
    (hapart : (chosen.map fun r => r.2.metricId).Nodup) : ∃ evidenceIds', evidenceIds.Perm evidenceIds' ∧
      ∀ r ∈ chosen, (usableOf (readings py store evidenceIds') r.2.metricId).getLast? = some r := by
  have hread : ∀ r ∈ chosen, r.1 ∈ evidenceIds ∧ readAt py store r.1 = some r.2 := fun r hr => mem_readings.mp (hchosen r hr).1
  have hids : (chosen.map Prod.fst).Nodup := by
    refine (nodup_map_iff_inj_on (Nodup.of_map _ hapart)).mpr fun r hr r' hr' hid => ?_
    have hsame := (hread r hr).2
    rw [hid, (hread r' hr').2] at hsame
    exact Prod.ext hid (Option.some.inj hsame).symm
  have hsub : chosen.map Prod.fst ⊆ evidenceIds := by
    intro id hid
    obtain ⟨r, hr, rfl⟩ := List.mem_map.mp hid
    exact (hread r hr).1
  obtain ⟨found, hfound, hpart⟩ := hids.subperm hsub
  obtain ⟨rest, hrest⟩ := hpart.exists_perm_append
  have hself : readings py store (chosen.map Prod.fst) = chosen := by
    rw [readings, filterMap_map]
    refine (filterMap_congr fun r hr => ?_).trans filterMap_some
    rw [Function.comp, (hread r hr).2, map_some]
  refine ⟨rest ++ chosen.map Prod.fst, (hrest.trans (hfound.append_right rest)).trans perm_append_comm, fun r hr => ?_⟩
  have hmem : r ∈ usableOf chosen r.2.metricId := mem_usableOf.mpr ⟨hr, rfl, (hchosen r hr).2⟩
  have hsplit : usableOf (readings py store (rest ++ chosen.map Prod.fst)) r.2.metricId =
      usableOf (readings py store rest) r.2.metricId ++ usableOf chosen r.2.metricId := by
    rw [readings, filterMap_append]
    show usableOf (readings py store rest ++ readings py store (chosen.map Prod.fst)) r.2.metricId = _
    rw [hself, usableOf, filter_append]
    rfl
  rw [hsplit, List.getLast?_append_of_ne_nil _ (ne_nil_of_mem hmem)]
  rw [List.getLast?_eq_some_getLast (ne_nil_of_mem hmem), some_inj]
  obtain ⟨hlast, hmetric, -⟩ := mem_usableOf.mp (getLast_mem (ne_nil_of_mem hmem))
  exact inj_on_of_nodup_map hapart hlast hr hmetric

theorem pairwise_ne {items : List String} (h : items.Nodup) : ∀ p ∈ pairwise items, p.1 ≠ p.2 := by
  induction items with
  | nil =>
    intro p hp
    cases hp
  | cons a items ih =>
    intro p hp
    cases items with
    | nil => cases hp
    | cons b items =>
      obtain rfl | hrest := mem_cons.mp hp
      · exact fun hab => (nodup_cons.mp h).1 (mem_cons.mpr (Or.inl hab))
      · exact ih (nodup_cons.mp h).2 p hrest

variable {p : String × String}

theorem mem_adjacent (h : p ∈ adjacent read) : p.1 ∈ funnelSteps ∧ p.2 ∈ funnelSteps ∧ p.1 ≠ p.2 := by
  have hnodup : (present read).Nodup := List.Nodup.filter _ (by decide)
  obtain ⟨hfirst, hsecond⟩ := of_mem_zip h
  exact ⟨(mem_filter.mp hfirst).1, (mem_filter.mp (mem_of_mem_tail hsecond)).1, pairwise_ne hnodup p h⟩

theorem eq_step {s : Step} {r : Reading} (hs : s ∈ stepsOf read) (hlast : (usableOf read s.metricId).getLast? = some r) :
    s = r.step := by
  obtain ⟨-, r', hr', hstep⟩ := mem_stepsOf.mp hs
  rw [hlast] at hr'
  cases hr'
  exact hstep.symm

theorem step_mem {r : Reading} (hmetric : r.2.metricId ∈ funnelSteps)
    (hlast : (usableOf read r.2.metricId).getLast? = some r) : r.step ∈ stepsOf read :=
  mem_stepsOf.mpr ⟨hmetric, r, hlast, rfl⟩

/-- Readings of two adjacent steps, and of a third one, in an order in which they are used. -/
theorem exists_transition (hp : p ∈ adjacent (readings py store evidenceIds)) {r r' : Reading}
    (hr : r ∈ usableOf (readings py store evidenceIds) p.1)
    (hr' : r' ∈ usableOf (readings py store evidenceIds) p.2) (hrate : r.rate ≠ 0) (others : List Reading)
    (hothers : ∀ q ∈ others, q ∈ readings py store evidenceIds ∧ q.2.value.isSome)
    (hapart : ((r :: r' :: others).map fun q => q.2.metricId).Nodup) :
    ∃ evidenceIds', evidenceIds.Perm evidenceIds' ∧
      (∀ q ∈ r :: r' :: others, (usableOf (readings py store evidenceIds') q.2.metricId).getLast? = some q) ∧
      { fromStep := p.1, toStep := p.2, conversion := r'.rate / r.rate, dropOff := 1 - r'.rate / r.rate } ∈
        transitions (stepsOf (readings py store evidenceIds')) := by
  obtain ⟨hmem, hmetric, hvalue⟩ := mem_usableOf.mp hr
  obtain ⟨hmem', hmetric', hvalue'⟩ := mem_usableOf.mp hr'
  have hchosen : ∀ q ∈ r :: r' :: others, q ∈ readings py store evidenceIds ∧ q.2.value.isSome := by
    intro q hq
    obtain rfl | hq := mem_cons.mp hq
    · exact ⟨hmem, hvalue⟩
    · obtain rfl | hq := mem_cons.mp hq
      · exact ⟨hmem', hvalue'⟩
      · exact hothers q hq
  obtain ⟨evidenceIds', hperm, hlast⟩ := exists_order _ hchosen hapart
  have hlast₁ := hlast r mem_cons_self
  have hlast₂ := hlast r' (mem_cons_of_mem _ mem_cons_self)
  rw [hmetric] at hlast₁
  rw [hmetric'] at hlast₂
  refine ⟨evidenceIds', hperm, hlast, mem_transitions.mpr ⟨p, ?_, r, r', hlast₁, hlast₂, ?_⟩⟩
  · rw [adjacent_perm (readings_perm hperm)]
    exact hp
  · rw [transition?_step, conversion?, if_neg hrate, map_some, hmetric, hmetric']

theorem coherent_of_laws (h : FunnelLaws py store evidenceIds) : Coherent (readings py store evidenceIds) := by
  have hpair : ∀ p ∈ adjacent (readings py store evidenceIds), ∀ r ∈ usableOf (readings py store evidenceIds) p.1,
      ∀ r' ∈ usableOf (readings py store evidenceIds) p.2, ([r, r'].map fun q => q.2.metricId).Nodup := by
    intro p hp r hr r' hr'
    have hne := (mem_adjacent hp).2.2
    rw [← (mem_usableOf.mp hr).2.1, ← (mem_usableOf.mp hr').2.1] at hne
    simpa using hne
  have halike : ∀ p ∈ adjacent (readings py store evidenceIds), ∀ r ∈ usableOf (readings py store evidenceIds) p.1,
      r.rate ≠ 0 → ∀ r' ∈ usableOf (readings py store evidenceIds) p.2, SameSlice r.2 r'.2 := by
    intro p hp r hr hrate r' hr'
    obtain ⟨hmem, hmetric, -⟩ := mem_usableOf.mp hr
    obtain ⟨hmem', hmetric', -⟩ := mem_usableOf.mp hr'
    obtain ⟨evidenceIds', hperm, hlast, hmove⟩ := exists_transition hp hr hr' hrate []
      (fun q hq => by cases hq) (hpair p hp r hr r' hr')
    obtain ⟨s, hs, s', hs', hfrom, hto, -, e, e', he, he', hsame⟩ := h.alike evidenceIds' hperm _ hmove
    dsimp only at hfrom hto
    obtain rfl := eq_step hs (by rw [hfrom, ← hmetric]; exact hlast r mem_cons_self)
    obtain rfl := eq_step hs' (by rw [hto, ← hmetric']; exact hlast r' (mem_cons_of_mem _ mem_cons_self))
    have hread : readAt py store r.step.ref = some r.2 := (mem_readings.mp hmem).2
    have hread' : readAt py store r'.step.ref = some r'.2 := (mem_readings.mp hmem').2
    rw [hread] at he
    rw [hread'] at he'
    cases he
    cases he'
    exact hsame
  have hsettled : ∀ p ∈ adjacent (readings py store evidenceIds), ∀ r ∈ usableOf (readings py store evidenceIds) p.1,
      ∀ r' ∈ usableOf (readings py store evidenceIds) p.2, ∀ q ∈ usableOf (readings py store evidenceIds) p.1,
      ∀ q' ∈ usableOf (readings py store evidenceIds) p.2, ∀ conversion, conversion? r r' = some conversion →
        conversion? q q' = some conversion := by
    intro p hp r hr r' hr' q hq q' hq' conversion hconversion
    have hrate : r.rate ≠ 0 := by
      intro hzero
      rw [conversion?, if_pos hzero] at hconversion
      cases hconversion
    rw [conversion?, if_neg hrate] at hconversion
    obtain ⟨evidenceIds₁, hperm₁, -, hmove⟩ := exists_transition hp hr hr' hrate [] (fun q hq => by cases hq)
      (hpair p hp r hr r' hr')
    obtain ⟨hmem, hmetric, hvalue⟩ := mem_usableOf.mp hq
    obtain ⟨hmem', hmetric', hvalue'⟩ := mem_usableOf.mp hq'
    have hchosen : ∀ t ∈ [q, q'], t ∈ readings py store evidenceIds ∧ t.2.value.isSome := by
      intro t ht
      obtain rfl | ht := mem_cons.mp ht
      · exact ⟨hmem, hvalue⟩
      · rw [mem_singleton.mp ht]
        exact ⟨hmem', hvalue'⟩
    obtain ⟨evidenceIds₂, hperm₂, hlast⟩ := exists_order _ hchosen (hpair p hp q hq q' hq')
    rw [h.settled evidenceIds₁ hperm₁, ← h.settled evidenceIds₂ hperm₂] at hmove
    obtain ⟨p₂, hp₂, t, t', ht, ht', hmove⟩ := mem_transitions.mp hmove
    obtain ⟨htrate, hfrom, hto, hquotient, -⟩ := transition?_eq_some.mp hmove
    dsimp only at hfrom hto hquotient
    have hfirst : p.1 = p₂.1 := hfrom.trans (mem_usableOf.mp (mem_of_getLast? ht)).2.1
    have hsecond : p.2 = p₂.2 := hto.trans (mem_usableOf.mp (mem_of_getLast? ht')).2.1
    have hlast₁ := hlast q mem_cons_self
    have hlast₂ := hlast q' (mem_cons_of_mem _ mem_cons_self)
    rw [hmetric, hfirst, ht] at hlast₁
    rw [hmetric', hsecond, ht'] at hlast₂
    cases hlast₁
    cases hlast₂
    have hrates : q'.rate / q.rate = r'.rate / r.rate := hquotient.symm
    have hqrate : q.rate ≠ 0 := htrate
    rw [conversion?, if_neg hqrate, hrates, hconversion]
  have hequal : ∀ p ∈ adjacent (readings py store evidenceIds), ∀ r ∈ usableOf (readings py store evidenceIds) p.1,
      ∀ r' ∈ usableOf (readings py store evidenceIds) p.2, ∀ q ∈ usableOf (readings py store evidenceIds) p.1,
      ∀ q' ∈ usableOf (readings py store evidenceIds) p.2, conversion? r r' = conversion? q q' := by
    intro p hp r hr r' hr' q hq q' hq'
    exact Option.ext fun conversion =>
      ⟨hsettled p hp r hr r' hr' q hq q' hq' conversion, hsettled p hp q hq q' hq' r hr r' hr' conversion⟩
  refine ⟨halike, hequal, fun p hp r hr hrate metricId hfunnel q hq hslice q' hq' => ?_⟩
  have hpresent : usableOf (readings py store evidenceIds) p.2 ≠ [] :=
    of_decide_eq_true (mem_filter.mp (mem_of_mem_tail (of_mem_zip hp).2)).2
  obtain ⟨r', hr'⟩ := exists_mem_of_ne_nil _ hpresent
  obtain ⟨hmem, hmetric, hvalue⟩ := mem_usableOf.mp hr
  by_cases hfirst : metricId = p.1
  · rw [hfirst] at hq'
    have hrate' : q'.rate ≠ 0 := by
      intro hzero
      have hsame := hequal p hp r hr r' hr' q' hq' r' hr'
      rw [conversion?, if_neg hrate, conversion?, if_pos hzero] at hsame
      cases hsame
    exact (halike p hp q' hq' hrate' r' hr').trans (halike p hp r hr hrate r' hr').symm
  · by_cases hsecond : metricId = p.2
    · rw [hsecond] at hq'
      exact (halike p hp r hr hrate q' hq').symm
    · -- a third step: all three readings can be the last ones of their steps
      obtain ⟨hmem', hmetric', hvalue'⟩ := mem_usableOf.mp hq'
      have hapart : ((r :: r' :: [q']).map fun t => t.2.metricId).Nodup := by
        have hne := (mem_adjacent hp).2.2
        have hr'metric := (mem_usableOf.mp hr').2.1
        simp only [map_cons, map_nil, nodup_cons, mem_cons, not_mem_nil, or_false, not_or,
          not_false_eq_true, nodup_nil, and_true]
        rw [hmetric, hmetric', hr'metric]
        exact ⟨⟨hne, Ne.symm hfirst⟩, Ne.symm hsecond⟩
      obtain ⟨evidenceIds', hperm, hlast, hmove⟩ := exists_transition hp hr hr' hrate [q']
        (fun t ht => by rw [mem_singleton.mp ht]; exact ⟨hmem', hvalue'⟩) hapart
      have hstep := step_mem (hmetric.symm ▸ (mem_adjacent hp).1) (hlast r mem_cons_self)
      have hq'' := (usableOf_perm (readings_perm hperm) metricId).mem_iff.mp hq
      obtain ⟨t, ht, htmetric, e', he', hsame⟩ := h.used evidenceIds' hperm _ hmove r.step hstep hmetric r.2
        (mem_readings.mp hmem).2 metricId hfunnel q hq'' hslice
      obtain rfl := eq_step ht (by rw [htmetric, ← hmetric']; exact hlast q' (by simp))
      have hread : readAt py store q'.step.ref = some q'.2 := (mem_readings.mp hmem').2
      rw [hread] at he'
      cases he'
      exact hsame

theorem exists_last (h : p ∈ adjacent read) :
    ∃ r r', (usableOf read p.1).getLast? = some r ∧ (usableOf read p.2).getLast? = some r' := by
  have hlast : ∀ metricId ∈ present read, ∃ r, (usableOf read metricId).getLast? = some r := by
    intro metricId hmetric
    exact ⟨_, List.getLast?_eq_some_getLast (of_decide_eq_true (mem_filter.mp hmetric).2)⟩
  obtain ⟨hfirst, hsecond⟩ := of_mem_zip h
  obtain ⟨r, hr⟩ := hlast p.1 hfirst
  obtain ⟨r', hr'⟩ := hlast p.2 (mem_of_mem_tail hsecond)
  exact ⟨r, r', hr, hr'⟩

theorem laws_of_coherent (h : Coherent (readings py store evidenceIds)) : FunnelLaws py store evidenceIds := by
  have hmem : ∀ {evidenceIds'}, evidenceIds.Perm evidenceIds' → ∀ {metricId r},
      (usableOf (readings py store evidenceIds') metricId).getLast? = some r →
      r ∈ usableOf (readings py store evidenceIds) metricId :=
    fun hperm _ _ hlast => (usableOf_perm (readings_perm hperm) _).mem_iff.mpr (mem_of_getLast? hlast)
  have hread : ∀ {metricId r}, r ∈ usableOf (readings py store evidenceIds) metricId → readAt py store r.step.ref = some r.2 :=
    fun hr => (mem_readings.mp (mem_usableOf.mp hr).1).2
  constructor
  · intro evidenceIds' hperm move hmove
    obtain ⟨p, hp, r, r', hr, hr', htransition⟩ := mem_transitions.mp hmove
    rw [adjacent_perm (readings_perm hperm)] at hp
    obtain ⟨hrate, hfrom, hto, hconversion, -⟩ := transition?_eq_some.mp htransition
    have hmetric := (mem_usableOf.mp (hmem hperm hr)).2.1
    have hmetric' := (mem_usableOf.mp (hmem hperm hr')).2.1
    refine ⟨r.step, step_mem ?_ (by rwa [hmetric]), r'.step, step_mem ?_ (by rwa [hmetric']), hfrom.symm, hto.symm,
      hconversion, r.2, r'.2, hread (hmem hperm hr), hread (hmem hperm hr'),
      h.alike p hp r (hmem hperm hr) hrate r' (hmem hperm hr')⟩
    · rw [hmetric]
      exact (mem_adjacent hp).1
    · rw [hmetric']
      exact (mem_adjacent hp).2.1
  · intro evidenceIds' hperm
    rw [transitions_stepsOf, transitions_stepsOf, adjacent_perm (readings_perm hperm)]
    refine filterMap_congr fun p hp => ?_
    obtain ⟨q, q', hq, hq'⟩ := exists_last hp
    obtain ⟨r, r', hr, hr'⟩ := exists_last (adjacent_perm (readings_perm hperm) ▸ hp :
      p ∈ adjacent (readings py store evidenceIds'))
    have hsame := h.settled p hp r (hmem hperm hr) r' (hmem hperm hr') q (mem_of_getLast? hq) q' (mem_of_getLast? hq')
    rw [move?, move?, hq, hq', hr, hr', bind_some, bind_some, bind_some, bind_some,
      transition?_step, transition?_step, hsame, (mem_usableOf.mp (mem_of_getLast? hq)).2.1,
      (mem_usableOf.mp (mem_of_getLast? hq')).2.1, (mem_usableOf.mp (mem_of_getLast? hr)).2.1,
      (mem_usableOf.mp (mem_of_getLast? hr')).2.1]
  · intro evidenceIds' hperm move hmove s hs hfrom e he metricId hfunnel q hq hslice
    obtain ⟨p, hp, r, r', hr, hr', htransition⟩ := mem_transitions.mp hmove
    rw [adjacent_perm (readings_perm hperm)] at hp
    obtain ⟨hrate, hfrom', -⟩ := transition?_eq_some.mp htransition
    have hmetric := (mem_usableOf.mp (hmem hperm hr)).2.1
    obtain rfl := eq_step hs (by rw [hfrom, hfrom']; exact hmetric ▸ hr)
    rw [hread (hmem hperm hr)] at he
    cases he
    obtain ⟨t, ht⟩ : ∃ t, (usableOf (readings py store evidenceIds') metricId).getLast? = some t :=
      ⟨_, List.getLast?_eq_some_getLast (ne_nil_of_mem hq)⟩
    have htmetric := (mem_usableOf.mp (hmem hperm ht)).2.1
    refine ⟨t.step, step_mem (by rwa [htmetric]) (by rwa [htmetric]), htmetric, t.2, hread (hmem hperm ht), ?_⟩
    exact h.whole p hp r (hmem hperm hr) hrate metricId hfunnel q ((usableOf_perm (readings_perm hperm) _).mem_iff.mpr hq)
      hslice t (hmem hperm ht)
  · intro evidenceIds' _ move hmove
    obtain ⟨p, -, r, r', -, -, htransition⟩ := mem_transitions.mp hmove
    obtain ⟨-, -, -, hconversion, hdrop⟩ := transition?_eq_some.mp htransition
    rw [hdrop, hconversion]
  · intro evidenceIds' _ hrates first last hfirst hlast
    exact prod_transitions _ first last hfirst hlast hrates

theorem funnelDecomposition_findings {evidence : List EvidenceArtifact}
    (hgate : gatedEvidence py desk.artifacts evidenceIds = .ok evidence) {result : ToolResult} {desk' : Desk}
    (hrun : funnelDecomposition py deps desk evidenceIds = (some result, desk')) :
    (desk'.findings result.artifactIds).map (fun f => (f.metrics, f.evidenceIds)) =
      (transitions (stepsOf (readings py desk.artifacts evidenceIds))).map fun move =>
        (move.metrics, (stepsOf (readings py desk.artifacts evidenceIds)).map Step.ref) := by
  have hread := zip_eq_readings evidenceIds evidence (gatedEvidence_ok_iff.mp hgate).2.1
  unfold funnelDecomposition at hrun
  rw [hgate] at hrun
  dsimp only at hrun
  rw [← hread]
  change (if hfew : (stepsOf (evidenceIds.zip evidence)).length < 2 then _ else _) = _ at hrun
  split at hrun
  · next hfew =>
    cases hrun
    have hnone : transitions (stepsOf (evidenceIds.zip evidence)) = [] := by
      rw [transitions, pairwise]
      cases hsteps : stepsOf (evidenceIds.zip evidence) with
      | nil => rfl
      | cons s rest =>
        rw [hsteps, length_cons] at hfew
        rw [eq_nil_of_length_eq_zero (Nat.lt_one_iff.mp (Nat.lt_of_succ_lt_succ hfew))]
        rfl
    rw [hnone]
    rfl
  · change (if transitions (stepsOf (evidenceIds.zip evidence)) = [] then _ else _) = _ at hrun
    split at hrun
    · next hnone =>
      cases hrun
      rw [hnone]
      rfl
    · split at hrun
      · cases hrun
      · next hwritten =>
        cases hrun
        refine (congrArg (List.map _) (findings_of_writeFindings py deps _ _ _ _ hwritten)).trans ?_
        rw [List.map_map]
        rfl

/-- The transitions obey the laws in every order of the ids exactly when the readings of adjacent steps are coherent. -/
theorem funnel_laws_iff {evidence : List EvidenceArtifact}
    (hgate : gatedEvidence py desk.artifacts evidenceIds = .ok evidence) :
    (∀ result desk', funnelDecomposition py deps desk evidenceIds = (some result, desk') →
      (desk'.findings result.artifactIds).map (fun f => (f.metrics, f.evidenceIds)) =
        (transitions (stepsOf (readings py desk.artifacts evidenceIds))).map fun move =>
          (move.metrics, (stepsOf (readings py desk.artifacts evidenceIds)).map Step.ref)) ∧
    (FunnelLaws py desk.artifacts evidenceIds ↔ Coherent (readings py desk.artifacts evidenceIds)) :=
  ⟨fun _ _ hrun => funnelDecomposition_findings hgate hrun, coherent_of_laws, laws_of_coherent⟩

end Laws

/-! Sessions of one day, and carts of that day and of the next. -/

def stepOn (metricId : String) (day : Datetime) (value : ℚ) : EvidenceArtifact where
  metricId := metricId
  grain := "day"
  periodStart := day
  periodEnd := day
  value := some value

def funnelDays : String → Option EvidenceArtifact
  | "sessions" => some (stepOn "metric.sessions" (september 9 ninth_range) 1000)
  | "carts" => some (stepOn "metric.atc_rate" (september 9 ninth_range) (1 / 5))
  | "cartsNextDay" => some (stepOn "metric.atc_rate" (september 10 tenth_range) (3 / 10))
  | _ => none

def funnelDaysDesk : Desk where
  artifacts := Table.empty.put (storedAs "sessions") |>.put (storedAs "carts") |>.put (storedAs "cartsNextDay")
  issued := 0

theorem oneDay_coherent : FunnelLaws (named funnelDays) funnelDaysDesk.artifacts ["sessions", "carts"] ↔
    Coherent (readings (named funnelDays) funnelDaysDesk.artifacts ["sessions", "carts"]) :=
  (@funnel_laws_iff (named funnelDays) Agent.oneBrandDeps funnelDaysDesk ["sessions", "carts"]
    [stepOn "metric.sessions" (september 9) 1000, stepOn "metric.atc_rate" (september 9) (1 / 5)]
    (gatedEvidence_ok_iff.mpr ⟨by decide, rfl, by decide +kernel⟩)).2

/-- The carts of the second day are measured against the sessions of the first. -/
theorem nextDay_not_coherent :
    gatedEvidence (named funnelDays) funnelDaysDesk.artifacts ["sessions", "carts", "cartsNextDay"] =
      .ok [stepOn "metric.sessions" (september 9) 1000, stepOn "metric.atc_rate" (september 9) (1 / 5),
        stepOn "metric.atc_rate" (september 10) (3 / 10)] ∧
    ¬FunnelLaws (named funnelDays) funnelDaysDesk.artifacts ["sessions", "carts", "cartsNextDay"] := by
  refine ⟨gatedEvidence_ok_iff.mpr ⟨by decide, rfl, by decide +kernel⟩, fun h => ?_⟩
  let sessions : Reading := ("sessions", stepOn "metric.sessions" (september 9) 1000)
  let carts : Reading := ("cartsNextDay", stepOn "metric.atc_rate" (september 10) (3 / 10))
  have hslice := (coherent_of_laws h).alike ("metric.sessions", "metric.atc_rate") (by decide +kernel) sessions
    (by
      rw [mem_usableOf]
      exact ⟨mem_cons_self, rfl, rfl⟩) (by decide +kernel) carts (by
      rw [mem_usableOf]
      exact ⟨mem_cons_of_mem _ (mem_cons_of_mem _ mem_cons_self), rfl, rfl⟩)
  have hperiod := hslice.1
  revert hperiod
  decide +kernel

end SelericSwarm.Analytics
