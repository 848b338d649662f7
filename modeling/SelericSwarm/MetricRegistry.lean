import Mathlib.Data.List.Sort
import Mathlib.Logic.Relation
import SelericSwarm.CatalogueBootstrap
import SelericSwarm.Grouping

/-! The metric ids of the overlay file and of the live catalogue, and the one id to which the spellings of a metric
collapse. -/
open List Option

namespace SelericSwarm.Metrics
open Keyed
open Catalogue (Bootstrap Content MetricMeta entry textOf)

/-- Which way the metric must not go. -/
inductive Direction where
  | up | down
  deriving DecidableEq

/-- What a definition is made of. -/
structure MetricPayload where
  id : String
  owner : String := ""
  description : String := ""
  formula : String := ""
  unit : Option String := none
  grain : String := "day"
  timezone : String := "Asia/Kolkata"
  domain : Option String := none
  catalogueMetric : Option String := none
  selericModule : Option String := none
  directionBad : String := "up"

structure MetricDefinition where
  id : String
  owner : String
  description : String
  formula : String
  unit : Option String
  grain : String
  timezone : String
  domain : String
  catalogueMetric : Option String
  selericModule : Option String
  directionBad : Direction
  deriving DecidableEq

/-- `MetricDefinition.__init__` -/
def MetricPayload.definition (payload : MetricPayload) : MetricDefinition where
  id := payload.id
  owner := payload.owner
  description := payload.description
  formula := payload.formula
  unit := payload.unit
  grain := payload.grain
  timezone := payload.timezone
  domain := payload.domain.getD payload.owner
  catalogueMetric := payload.catalogueMetric.filter (· ≠ "")
  selericModule := payload.selericModule
  directionBad := if payload.directionBad = "down" then .down else .up

def Direction.text : Direction → String
  | .up => "up"
  | .down => "down"

def categoryDomain : String → Option String
  | "commerce" => some "commerce"
  | "attribution" => some "attribution"
  | "web_analytics" => some "funnel"
  | "webanalytics" => some "funnel"
  | "product" => some "product"
  | "paid_media" => some "performance"
  | "paidmedia" => some "performance"
  | "finance" => some "finance"
  | "customer" => some "customer"
  | "operations" => some "operations"
  | _ => none

structure MetricRegistry where
  metrics : Dict String MetricDefinition
  byCatalogue : Dict String String
  liveDefs : Dict String MetricDefinition := .empty

namespace MetricRegistry

/-- `__init__`, over the rows of the file. -/
def ofRows (rows : List MetricPayload) : MetricRegistry :=
  let metrics := Dict.indexed MetricDefinition.id (rows.map MetricPayload.definition)
  let linked := metrics.values.filterMap fun m => m.catalogueMetric.map fun c => (c, m.id)
  { metrics, byCatalogue := linked.foldl (fun d link => d.set link.1 link.2) .empty }

variable (registry : MetricRegistry)

/-- `self._by_catalogue.get(..)`, of which an empty id is as good as none. -/
def yamlId (catalogueId : String) : Option String := (registry.byCatalogue.get? catalogueId).filter (· ≠ "")

def overlayFor (catalogueId : String) : Option MetricDefinition :=
  (registry.yamlId catalogueId).bind registry.metrics.get?

def siblingOverlay (id : String) : Option MetricDefinition :=
  let longest := registry.byCatalogue.rows.insertionSort fun a b => b.1.length ≤ a.1.length
  (longest.find? fun link => link.1 ≠ "" ∧ id.startsWith (link.1 ++ "_")).bind fun link => registry.metrics.get? link.2

section Live
variable (str : Json → String)

def fromLive (live : MetricMeta) : MetricDefinition :=
  let overlay := (registry.overlayFor live.id).or (registry.siblingOverlay live.id)
  let category := (textOf str live.raw "category").toLower
  let domain := (((overlay.map MetricDefinition.domain).filter (· ≠ "")).or (categoryDomain category)).getD ""
  let payload : MetricPayload :=
    { id := live.id
      catalogueMetric := some live.id
      description := if live.label ≠ "" then live.label else (entry live.raw "description").elim live.id str
      domain := some domain
      owner := domain
      formula := (entry live.raw "formula").elim live.id str
      grain := (entry live.raw "grain").elim "day" str
      timezone := "Asia/Kolkata" }
  match overlay with
  | none => payload.definition
  | some overlay =>
    { payload with
      directionBad := overlay.directionBad.text
      selericModule := overlay.selericModule
      unit := overlay.unit : MetricPayload }.definition

def bindCatalogue (bootstrap : Option Bootstrap) : MetricRegistry :=
  match bootstrap with
  | none => { registry with liveDefs := .empty }
  | some bootstrap =>
    if bootstrap.isWarm then
      { registry with
        liveDefs := Dict.indexed MetricDefinition.id (bootstrap.content.entries.map (registry.fromLive str)) }
    else { registry with liveDefs := .empty }

end Live

def yamlAll : List MetricDefinition := registry.metrics.values

def get (metricId : String) : Option MetricDefinition :=
  match registry.liveDefs.get? metricId with
  | some live => some live
  | none =>
    match registry.metrics.get? metricId with
    | some row => some row
    | none => (registry.yamlId metricId).bind registry.metrics.get?

def canonicalId (metricId : String) : String :=
  match registry.get metricId with
  | none => metricId
  | some definition =>
    match definition.catalogueMetric.filter fun c => (registry.liveDefs.get? c).isSome with
    | some c => c
    | none => if (registry.liveDefs.get? metricId).isSome then metricId else definition.id

end MetricRegistry

/-- The registry of an overlay file, and of a catalogue bound to it. -/
def registryOf (str : Json → String) (rows : List MetricPayload) (bootstrap : Option Bootstrap) : MetricRegistry :=
  (MetricRegistry.ofRows rows).bindCatalogue str bootstrap

namespace MetricRegistry
variable (r : MetricRegistry)

/-- The ids that a row of the overlay links. -/
def Linked (x y : String) : Prop := ∃ row ∈ r.yamlAll, row.id = x ∧ row.catalogueMetric = some y

def Live (id : String) : Prop := (r.liveDefs.get? id).isSome

/-- The id is one of the overlay's. -/
def Listed (id : String) : Prop := (r.metrics.get? id).isSome

instance (id : String) : Decidable (r.Live id) := inferInstanceAs (Decidable (_ = true))
instance (id : String) : Decidable (r.Listed id) := inferInstanceAs (Decidable (_ = true))

/-- Every spelling of a metric has one id, and no other metric has it. -/
structure Collapses : Prop where
  idempotent : ∀ x, r.canonicalId (r.canonicalId x) = r.canonicalId x
  linked : ∀ row ∈ r.yamlAll, ∀ c ∈ row.catalogueMetric, r.canonicalId row.id = r.canonicalId c
  apart : ∀ x y, r.canonicalId x = r.canonicalId y → Relation.EqvGen r.Linked x y
  kept : ∀ x d, r.get x = some d → ∃ d', r.get (r.canonicalId x) = some d' ∧
    d'.domain = d.domain ∧ d'.directionBad = d.directionBad

def LiveAs (id : String) (row : MetricDefinition) : Prop :=
  ∀ live ∈ r.liveDefs.get? id, live.domain = row.domain ∧ live.directionBad = row.directionBad

instance (id : String) (row : MetricDefinition) : Decidable (r.LiveAs id row) := inferInstanceAs (Decidable (∀ _ ∈ _, _))

/-- No spelling of the row's metric is taken by another one. -/
def Unshared (row : MetricDefinition) (c : String) : Prop :=
  if r.Live c then if r.Live row.id then row.id = c else r.LiveAs c row
  else
    row.id = c ∨
    (¬r.Listed c ∧ row.id ≠ "" ∧ (∀ other ∈ r.yamlAll, other.catalogueMetric = some c → other.id = row.id) ∧
      r.LiveAs row.id row) ∨
    (r.Live row.id ∧ ∃ other ∈ r.yamlAll, other.id = c ∧ other.catalogueMetric = some row.id)

/-- What the registry keeps. -/
structure Sound : Prop where
  keyed : ∀ {id d}, r.metrics.get? id = some d → d.id = id
  named : ∀ {c y}, r.byCatalogue.get? c = some y → ∃ d, r.metrics.get? y = some d ∧ d.catalogueMetric = some c
  indexed : ∀ {id d c}, r.metrics.get? id = some d → d.catalogueMetric = some c → (r.byCatalogue.get? c).isSome
  live : ∀ {id d}, r.liveDefs.get? id = some d → d.id = id ∧ d.catalogueMetric = (some id).filter (· ≠ "")

end MetricRegistry

section Registries
variable (str : Json → String) (rows : List MetricPayload)

theorem get?_indexed_keyed {α : Type} {key : α → String} {items : List α} {k : String} {a : α}
    (h : (Dict.indexed key items).get? k = some a) : a ∈ items ∧ key a = k := by
  rw [Dict.get?_indexed] at h
  obtain ⟨hmem, hkey⟩ := mem_filter.mp (mem_of_getLast? h)
  exact ⟨hmem, of_decide_eq_true hkey⟩

theorem mem_values_iff {d : Dict String MetricDefinition} (hkeyed : ∀ {id m}, d.get? id = some m → m.id = id)
    {m : MetricDefinition} : m ∈ d.values ↔ d.get? m.id = some m := by
  constructor
  · intro hm
    obtain ⟨⟨k, m'⟩, hmem, hval⟩ := List.mem_map.mp hm
    dsimp only at hval
    subst hval
    have hget : d.get? k = some m' := by rw [Dict.get?, Table.get?_of_mem hmem, map_some]
    rwa [hkeyed hget]
  · intro h
    obtain ⟨e, he, hval⟩ := map_eq_some_iff.mp h
    exact List.mem_map.mpr ⟨e, Table.mem_of_get? he, hval⟩

theorem fromLive_id (r : MetricRegistry) (live : MetricMeta) :
    (r.fromLive str live).id = live.id ∧ (r.fromLive str live).catalogueMetric = (some live.id).filter (· ≠ "") := by
  unfold MetricRegistry.fromLive
  dsimp only
  split <;> exact ⟨rfl, rfl⟩

theorem sound_ofRows : (MetricRegistry.ofRows rows).Sound := by
  have hkeyed : ∀ {id d}, (MetricRegistry.ofRows rows).metrics.get? id = some d → d.id = id :=
    fun h => (get?_indexed_keyed h).2
  have hlinks (c : String) := Dict.get?_foldl_pairs
    ((MetricRegistry.ofRows rows).metrics.values.filterMap fun m => m.catalogueMetric.map fun c => (c, m.id)) c .empty
  have hlink : ∀ {c y}, (c, y) ∈ (MetricRegistry.ofRows rows).metrics.values.filterMap
      (fun m => m.catalogueMetric.map fun c => (c, m.id)) ↔
        ∃ d, (MetricRegistry.ofRows rows).metrics.get? y = some d ∧ d.catalogueMetric = some c := by
    intro c y
    rw [mem_filterMap]
    constructor
    · rintro ⟨d, hd, hsome⟩
      obtain ⟨c', hc', heq⟩ := map_eq_some_iff.mp hsome
      obtain ⟨rfl, rfl⟩ := Prod.mk.inj heq
      exact ⟨d, (mem_values_iff hkeyed).mp hd, hc'⟩
    · rintro ⟨d, hd, hc⟩
      refine ⟨d, (mem_values_iff hkeyed).mpr ?_, by rw [hc, map_some, hkeyed hd]⟩
      rwa [hkeyed hd]
  refine ⟨hkeyed, fun {c y} h => ?_, fun {id d c} hd hc => ?_, fun h => ?_⟩
  · have hget := hlinks c
    rw [Dict.get?_empty, or_none] at hget
    obtain ⟨p, hp, hval⟩ := map_eq_some_iff.mp (hget.symm.trans h)
    obtain ⟨hmem, hkey⟩ := mem_filter.mp (mem_of_getLast? hp)
    have hc := of_decide_eq_true hkey
    subst hc hval
    exact hlink.mp hmem
  · have hget := hlinks c
    rw [Dict.get?_empty, or_none] at hget
    have hmem : (c, id) ∈ Dict.group Prod.fst ((MetricRegistry.ofRows rows).metrics.values.filterMap
        fun m => m.catalogueMetric.map fun c => (c, m.id)) c :=
      mem_filter.mpr ⟨hlink.mpr ⟨d, hd, hc⟩, decide_eq_true rfl⟩
    rw [List.getLast?_eq_some_getLast (ne_nil_of_mem hmem), map_some] at hget
    exact isSome_iff_exists.mpr ⟨_, hget⟩
  · cases h

theorem sound_registryOf (bootstrap : Option Bootstrap) : (registryOf str rows bootstrap).Sound := by
  have hrows := sound_ofRows rows
  have hcold : ({ MetricRegistry.ofRows rows with liveDefs := .empty } : MetricRegistry).Sound :=
    ⟨hrows.keyed, hrows.named, hrows.indexed, fun h => by cases h⟩
  unfold registryOf MetricRegistry.bindCatalogue
  split
  · exact hcold
  · split
    · refine ⟨hrows.keyed, hrows.named, hrows.indexed, fun {id d} h => ?_⟩
      obtain ⟨hmem, hid⟩ := get?_indexed_keyed h
      obtain ⟨live, -, rfl⟩ := List.mem_map.mp hmem
      obtain ⟨hid', hcat⟩ := fromLive_id str (MetricRegistry.ofRows rows) live
      rw [hid'] at hid
      exact ⟨hid'.trans hid, by rw [hcat, hid]⟩
    · exact hcold

end Registries

/-! Where an id is looked up, and where it goes. -/

section Spellings
variable {r : MetricRegistry} {x y c : String} {row : MetricDefinition}

inductive Spelling (r : MetricRegistry) (x : String) : Prop
  | live (hlive : r.Live x) (hget : r.get x = r.liveDefs.get? x) (hcanonical : r.canonicalId x = x)
  | row_live (row : MetricDefinition) (c : String) (hnot : ¬r.Live x) (hrow : r.metrics.get? x = some row)
      (hc : row.catalogueMetric = some c) (hlive : r.Live c) (hget : r.get x = some row) (hcanonical : r.canonicalId x = c)
  | row_cold (row : MetricDefinition) (hnot : ¬r.Live x) (hrow : r.metrics.get? x = some row)
      (hcold : ∀ c ∈ row.catalogueMetric, ¬r.Live c) (hget : r.get x = some row) (hcanonical : r.canonicalId x = x)
  | catalogue (row : MetricDefinition) (hnot : ¬r.Live x) (hlisted : ¬r.Listed x) (hid : row.id ≠ "")
      (hrow : r.metrics.get? row.id = some row) (hc : row.catalogueMetric = some x) (hget : r.get x = some row)
      (hcanonical : r.canonicalId x = row.id)
  | unknown (hnot : ¬r.Live x) (hlisted : ¬r.Listed x) (hnone : r.yamlId x = none) (hget : r.get x = none)
      (hcanonical : r.canonicalId x = x)

section
variable (h : r.Sound)
include h

theorem spelling (x : String) : Spelling r x := by
  cases hlive : r.liveDefs.get? x with
  | some d =>
    have hisLive : r.Live x := by simp [MetricRegistry.Live, hlive]
    have hget : r.get x = some d := by simp [MetricRegistry.get, hlive]
    refine .live hisLive (hget.trans hlive.symm) ?_
    rw [MetricRegistry.canonicalId, hget]
    simp only [(h.live hlive).2]
    by_cases hx : x = ""
    · have hfilter : ((some x).filter (· ≠ "")).filter (fun c => (r.liveDefs.get? c).isSome) = none := by
        rw [filter_some, if_neg (by simpa using hx)]
        rfl
      simp only [hfilter, hlive, isSome_some, if_true]
    · have hfilter : ((some x).filter (· ≠ "")).filter (fun c => (r.liveDefs.get? c).isSome) = some x := by
        rw [filter_some, if_pos (by simpa using hx), filter_some, hlive]
        rfl
      simp only [hfilter]
  | none =>
    have hnot : ¬r.Live x := by simp [MetricRegistry.Live, hlive]
    cases hrow : r.metrics.get? x with
    | some row =>
      have hget : r.get x = some row := by simp [MetricRegistry.get, hlive, hrow]
      have hid := h.keyed hrow
      by_cases hcold : ∀ c ∈ row.catalogueMetric, ¬r.Live c
      · refine .row_cold row hnot hrow hcold hget ?_
        have hfilter : row.catalogueMetric.filter (fun c => (r.liveDefs.get? c).isSome) = none :=
          filter_eq_none_iff.mpr hcold
        rw [MetricRegistry.canonicalId, hget]
        simp only [hfilter, hlive, hid]
        rfl
      · push Not at hcold
        obtain ⟨c, hc, hlivec⟩ := hcold
        refine .row_live row c hnot hrow hc hlivec hget ?_
        have hfilter : row.catalogueMetric.filter (fun c => (r.liveDefs.get? c).isSome) = some c :=
          filter_eq_some_iff.mpr ⟨hc, hlivec⟩
        rw [MetricRegistry.canonicalId, hget]
        simp only [hfilter]
    | none =>
      have hlisted : ¬r.Listed x := by simp [MetricRegistry.Listed, hrow]
      cases hyaml : r.yamlId x with
      | none =>
        have hget : r.get x = none := by simp [MetricRegistry.get, hlive, hrow, hyaml]
        exact .unknown hnot hlisted hyaml hget (by rw [MetricRegistry.canonicalId, hget])
      | some y =>
        obtain ⟨hby, hne⟩ := filter_eq_some_iff.mp hyaml
        obtain ⟨row, hrowy, hc⟩ := h.named hby
        have hid := h.keyed hrowy
        subst hid
        have hget : r.get x = some row := by simp [MetricRegistry.get, hlive, hrow, hyaml, hrowy]
        refine .catalogue row hnot hlisted (by simpa using hne) hrowy hc hget ?_
        have hfilter : row.catalogueMetric.filter (fun c => (r.liveDefs.get? c).isSome) = none :=
          filter_eq_none_iff.mpr fun d hd => by
            rw [hc] at hd
            rwa [← Option.some.inj hd]
        rw [MetricRegistry.canonicalId, hget]
        simp only [hfilter, hlive]
        rfl

theorem mem_yamlAll : row ∈ r.yamlAll ↔ r.metrics.get? row.id = some row := mem_values_iff h.keyed

theorem canonicalId_live (hlive : r.Live x) : r.canonicalId x = x := by
  cases spelling h x with
  | live _ _ hcanonical => exact hcanonical
  | row_live _ _ hnot => exact absurd hlive hnot
  | row_cold _ hnot => exact absurd hlive hnot
  | catalogue _ hnot => exact absurd hlive hnot
  | unknown hnot => exact absurd hlive hnot

theorem canonicalId_listed (hrow : r.metrics.get? x = some row)
    (hcold : r.Live x ∨ ∀ c ∈ row.catalogueMetric, ¬r.Live c) : r.canonicalId x = x := by
  have hlisted : r.Listed x := by simp [MetricRegistry.Listed, hrow]
  cases spelling h x with
  | live _ _ hcanonical => exact hcanonical
  | row_live row' c hnot hrow' hc hlive =>
    obtain rfl := Option.some.inj (hrow.symm.trans hrow')
    exact absurd hlive (hcold.resolve_left hnot c hc)
  | row_cold _ _ _ _ _ hcanonical => exact hcanonical
  | catalogue _ _ hnot => exact absurd hlisted hnot
  | unknown _ hnot => exact absurd hlisted hnot

theorem canonicalId_row_live (hnot : ¬r.Live x) (hrow : r.metrics.get? x = some row)
    (hc : row.catalogueMetric = some c) (hlive : r.Live c) : r.canonicalId x = c := by
  have hlisted : r.Listed x := by simp [MetricRegistry.Listed, hrow]
  cases spelling h x with
  | live hlivex => exact absurd hlivex hnot
  | row_live row' c' _ hrow' hc' _ _ hcanonical =>
    obtain rfl := Option.some.inj (hrow.symm.trans hrow')
    rw [hcanonical, Option.some.inj (hc'.symm.trans hc)]
  | row_cold row' _ hrow' hcold =>
    obtain rfl := Option.some.inj (hrow.symm.trans hrow')
    exact absurd hlive (hcold c hc)
  | catalogue _ _ hnot => exact absurd hlisted hnot
  | unknown _ hnot => exact absurd hlisted hnot

theorem canonicalId_canonicalId (x : String) : r.canonicalId (r.canonicalId x) = r.canonicalId x := by
  cases spelling h x with
  | live _ _ hcanonical => rw [hcanonical, hcanonical]
  | row_live _ _ _ _ _ hlive _ hcanonical => rw [hcanonical, canonicalId_live h hlive]
  | row_cold _ _ _ _ _ hcanonical => rw [hcanonical, hcanonical]
  | catalogue row hnot _ _ hrow hc _ hcanonical =>
    rw [hcanonical, canonicalId_listed h hrow (Or.inr fun c hc' => ?_)]
    rwa [← Option.some.inj (hc.symm.trans hc')]
  | unknown _ _ _ _ hcanonical => rw [hcanonical, hcanonical]

theorem eqvGen_canonicalId (x : String) : Relation.EqvGen r.Linked x (r.canonicalId x) := by
  cases spelling h x with
  | live _ _ hcanonical =>
    rw [hcanonical]
    exact .refl x
  | row_live row c _ hrow hc _ _ hcanonical =>
    rw [hcanonical]
    have hid := h.keyed hrow
    exact .rel x c ⟨row, (mem_yamlAll h).mpr (by rwa [hid]), hid, hc⟩
  | row_cold _ _ _ _ _ hcanonical =>
    rw [hcanonical]
    exact .refl x
  | catalogue row _ _ _ hrow hc _ hcanonical =>
    rw [hcanonical]
    exact .symm _ _ (.rel row.id x ⟨row, (mem_yamlAll h).mpr hrow, rfl, hc⟩)
  | unknown _ _ _ _ hcanonical =>
    rw [hcanonical]
    exact .refl x

theorem eqvGen_of_canonicalId (heq : r.canonicalId x = r.canonicalId y) : Relation.EqvGen r.Linked x y := by
  have hx := eqvGen_canonicalId h x
  rw [heq] at hx
  exact .trans _ _ _ hx (.symm _ _ (eqvGen_canonicalId h y))

end

end Spellings

/-! When every spelling collapses. -/

section Collapsing
variable {r : MetricRegistry} {x c : String} {row : MetricDefinition}

theorem get_listed (hnot : ¬r.Live x) (hrow : r.metrics.get? x = some row) : r.get x = some row := by
  have hnone : r.liveDefs.get? x = none := by simpa [MetricRegistry.Live] using hnot
  simp [MetricRegistry.get, hnone, hrow]

theorem get_live {d : MetricDefinition} (hlive : r.liveDefs.get? x = some d) : r.get x = some d := by
  simp [MetricRegistry.get, hlive]

/-- What `get` gives of a row's id agrees with the row, if a live definition of that id does. -/
theorem get_row (hrow : r.metrics.get? row.id = some row) (hlike : r.LiveAs row.id row) :
    ∃ d, r.get row.id = some d ∧ d.domain = row.domain ∧ d.directionBad = row.directionBad := by
  cases hlive : r.liveDefs.get? row.id with
  | some d => exact ⟨d, get_live hlive, hlike d hlive⟩
  | none => exact ⟨row, get_listed (by simp [MetricRegistry.Live, hlive]) hrow, rfl, rfl⟩

theorem canonicalId_of_cold (h : r.Sound) (hrow : row ∈ r.yamlAll) (hc : row.catalogueMetric = some c) (hcold : ¬r.Live c) :
    r.canonicalId row.id = row.id :=
  canonicalId_listed h ((mem_yamlAll h).mp hrow) (Or.inr fun d hd => by rwa [← Option.some.inj (hc.symm.trans hd)])

theorem unshared_of_collapses (h : r.Sound) (hlaws : r.Collapses) (hrow : row ∈ r.yamlAll)
    (hc : row.catalogueMetric = some c) : r.Unshared row c := by
  have hget := (mem_yamlAll h).mp hrow
  have hlinked := hlaws.linked row hrow c hc
  unfold MetricRegistry.Unshared
  by_cases hlive : r.Live c
  · rw [if_pos hlive]
    rw [canonicalId_live h hlive] at hlinked
    split
    · rename_i hliverow
      rwa [canonicalId_live h hliverow] at hlinked
    · rename_i hnot
      intro live hmem
      obtain ⟨d, hd, hagree⟩ := hlaws.kept row.id row (get_listed hnot hget)
      rw [hlinked, get_live hmem] at hd
      rwa [← Option.some.inj hd] at hagree
  · rw [if_neg hlive]
    rw [canonicalId_of_cold h hrow hc hlive] at hlinked
    cases spelling h c with
    | live hlivec => exact absurd hlivec hlive
    | row_live other d _ hother hd hlived _ hcanonical =>
      rw [hcanonical] at hlinked
      have hid := h.keyed hother
      exact Or.inr (Or.inr ⟨hlinked ▸ hlived, other, (mem_yamlAll h).mpr (by rwa [hid]), hid, hlinked ▸ hd⟩)
    | row_cold _ _ _ _ _ hcanonical => exact Or.inl (hlinked.trans hcanonical)
    | unknown _ _ hnone =>
      obtain ⟨y, hy⟩ := isSome_iff_exists.mp (h.indexed hget hc)
      obtain ⟨row', hrow', -⟩ := h.named hy
      have hempty : y = "" := by
        by_contra hne
        rw [MetricRegistry.yamlId, hy, filter_some, if_pos (by simpa using hne)] at hnone
        cases hnone
      rename_i hlisted hgetc hcanonical
      rw [hcanonical] at hlinked
      exact absurd (by simp [MetricRegistry.Listed, ← hlinked, hget]) hlisted
    | catalogue last hnot hlisted hid hlast hlastc hgetc hcanonical =>
      rw [hcanonical] at hlinked
      refine Or.inr (Or.inl ⟨hlisted, hlinked ▸ hid, fun other hother hotherc => ?_, fun live hmem => ?_⟩)
      · have hothers := hlaws.linked other hother c hotherc
        rw [canonicalId_of_cold h hother hotherc hlive, hcanonical] at hothers
        rw [hothers, hlinked]
      · obtain ⟨d, hd, hagree⟩ := hlaws.kept c last hgetc
        rw [hcanonical, ← hlinked, get_live hmem] at hd
        have hsame : row = last := by
          rw [← hlinked, hget] at hlast
          exact Option.some.inj hlast
        rw [hsame]
        rwa [← Option.some.inj hd] at hagree

section
variable (h : r.Sound) (hall : ∀ row ∈ r.yamlAll, ∀ c ∈ row.catalogueMetric, r.Unshared row c)
include h hall

theorem linked_of_unshared (hrow : row ∈ r.yamlAll) (hc : row.catalogueMetric = some c) :
    r.canonicalId row.id = r.canonicalId c := by
  have hget := (mem_yamlAll h).mp hrow
  have hunshared := hall row hrow c hc
  unfold MetricRegistry.Unshared at hunshared
  by_cases hlive : r.Live c
  · rw [if_pos hlive] at hunshared
    rw [canonicalId_live h hlive]
    by_cases hliverow : r.Live row.id
    · rw [if_pos hliverow] at hunshared
      rw [canonicalId_live h hliverow, hunshared]
    · exact canonicalId_row_live h hliverow hget hc hlive
  · rw [if_neg hlive] at hunshared
    rw [canonicalId_of_cold h hrow hc hlive]
    obtain hsame | ⟨hlisted, hne, honly, -⟩ | ⟨hliverow, other, hother, hid, hotherc⟩ := hunshared
    · rw [← hsame, canonicalId_of_cold h hrow hc hlive]
    · cases spelling h c with
      | live hlivec => exact absurd hlivec hlive
      | row_live _ _ _ hc' => exact absurd (by simp [MetricRegistry.Listed, hc']) hlisted
      | row_cold _ _ hc' => exact absurd (by simp [MetricRegistry.Listed, hc']) hlisted
      | catalogue last _ _ _ hlast hlastc _ hcanonical =>
        rw [hcanonical, honly last ((mem_yamlAll h).mpr hlast) hlastc]
      | unknown _ _ hnone =>
        obtain ⟨y, hy⟩ := isSome_iff_exists.mp (h.indexed hget hc)
        obtain ⟨row', hrow', hc'⟩ := h.named hy
        have hid := h.keyed hrow'
        have hsame := honly row' ((mem_yamlAll h).mpr (by rwa [hid])) hc'
        rw [MetricRegistry.yamlId, hy, filter_some, if_pos (by simpa [← hid, hsame] using hne)] at hnone
        cases hnone
    · have hother' := (mem_yamlAll h).mp hother
      rw [hid] at hother'
      rw [canonicalId_row_live h hlive hother' hotherc hliverow]

theorem kept_of_unshared {d : MetricDefinition} (hd : r.get x = some d) :
    ∃ d', r.get (r.canonicalId x) = some d' ∧ d'.domain = d.domain ∧ d'.directionBad = d.directionBad := by
  cases spelling h x with
  | live _ _ hcanonical => exact ⟨d, by rw [hcanonical, hd], rfl, rfl⟩
  | row_cold _ _ _ _ _ hcanonical => exact ⟨d, by rw [hcanonical, hd], rfl, rfl⟩
  | unknown _ _ _ hget => rw [hget] at hd; cases hd
  | row_live row c hnot hrow hc hlive hget hcanonical =>
    obtain rfl := Option.some.inj (hget.symm.trans hd)
    have hid := h.keyed hrow
    have hunshared := hall row ((mem_yamlAll h).mpr (by rwa [hid])) c hc
    rw [MetricRegistry.Unshared, if_pos hlive, hid, if_neg hnot] at hunshared
    obtain ⟨live, hmem⟩ := isSome_iff_exists.mp hlive
    exact ⟨live, by rw [hcanonical, get_live hmem], hunshared live hmem⟩
  | catalogue row hnot hlisted hid hrow hc hget hcanonical =>
    obtain rfl := Option.some.inj (hget.symm.trans hd)
    have hunshared := hall row ((mem_yamlAll h).mpr hrow) x hc
    rw [MetricRegistry.Unshared, if_neg hnot] at hunshared
    rw [hcanonical]
    obtain hsame | ⟨-, -, -, hlike⟩ | ⟨-, other, hother, hotherid, -⟩ := hunshared
    · exact absurd (by simp [MetricRegistry.Listed, ← hsame, hrow]) hlisted
    · exact get_row hrow hlike
    · have hother' := (mem_yamlAll h).mp hother
      rw [hotherid] at hother'
      exact absurd (by simp [MetricRegistry.Listed, hother']) hlisted

end

end Collapsing

/-- The spellings collapse just when no row's metric is taken by another. -/
theorem collapses_iff (str : Json → String) (rows : List MetricPayload) (bootstrap : Option Bootstrap) :
    (registryOf str rows bootstrap).Collapses ↔
      ∀ row ∈ (registryOf str rows bootstrap).yamlAll, ∀ c ∈ row.catalogueMetric,
        (registryOf str rows bootstrap).Unshared row c := by
  have h := sound_registryOf str rows bootstrap
  refine ⟨fun hlaws row hrow c hc => unshared_of_collapses h hlaws hrow hc, fun hall => ?_⟩
  exact ⟨canonicalId_canonicalId h, fun row hrow c hc => linked_of_unshared h hall hrow hc,
    fun x y => eqvGen_of_canonicalId h, fun x d => kept_of_unshared h hall⟩

/-- Two rows name one metric, and no catalogue is bound. -/
theorem spellings_apart :
    let rows : List MetricPayload :=
      [{ id := "metric.revenue", catalogueMetric := some "net_revenue" },
        { id := "metric.sales", catalogueMetric := some "net_revenue" }]
    let registry := registryOf (fun _ => "") rows none
    registry.canonicalId "metric.revenue" = "metric.revenue" ∧ registry.canonicalId "net_revenue" = "metric.sales" ∧
      ¬registry.Collapses := by
  intro rows registry
  have hrevenue : registry.canonicalId "metric.revenue" = "metric.revenue" := by decide +kernel
  have hcatalogue : registry.canonicalId "net_revenue" = "metric.sales" := by decide +kernel
  refine ⟨hrevenue, hcatalogue, fun h => ?_⟩
  have hmem : (MetricPayload.definition { id := "metric.revenue", catalogueMetric := some "net_revenue" }) ∈
      registry.yamlAll := by decide +kernel
  have hlinked := h.linked _ hmem "net_revenue" rfl
  rw [hcatalogue] at hlinked
  exact absurd (hrevenue.symm.trans hlinked) (by decide)

end SelericSwarm.Metrics
