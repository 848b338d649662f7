import Mathlib.Algebra.Order.Field.Rat
import SelericSwarm.Machine
import SelericSwarm.MetricsQuery

/-! The in-process cache of the metric catalogue, and the warming tasks that clear and refill it, each
suspended while it awaits the gateway. -/
open Option

namespace SelericSwarm.Catalogue
open Keyed Agent

structure MetricMeta where
  id : String
  label : String
  view : String
  supportedDimensions : List Json
  raw : List (String × Json)

/-- What the readers read. -/
structure Content where
  cache : Dict String MetricMeta := .empty
  dimensionAliases : Dict String (List String) := .empty
  grainDefaults : List (String × Json) := []

namespace Content
variable (c : Content)

def has (metricId : String) : Bool := (c.cache.get? metricId).isSome

def get (metricId : String) : Option MetricMeta := c.cache.get? metricId

def entries : List MetricMeta := c.cache.values

end Content

/-- A call that has raised, or has not returned a dictionary, gives the empty one. -/
def reply : Option Json → List (String × Json)
  | some (.obj entries) => entries
  | _ => []

/-- `d.get(key) or default`, where the default is empty. -/
def entry (d : List (String × Json)) (key : String) : Option Json := (d.lookup key).filter Agent.truthy

/-- The elements a loop visits: a dictionary's keys and a text's characters; numbers raise. -/
def iterate? : Json → Option (List Json)
  | .arr items => some items
  | .obj entries => some (entries.map fun e => .str e.1)
  | .str s => some (s.toList.map fun c => .str (String.singleton c))
  | _ => none

/-- A missing or falsy value is an empty list. -/
def elements? (value : Option Json) : Option (List Json) := value.elim (some []) iterate?

section
-- Python's `str`
variable (str : Json → String)

def textOf (d : List (String × Json)) (key : String) : String := (entry d key).elim "" str

/-- A loop over rows that ends early where a row raises; says also whether one has. -/
def fill {α : Type} (add : α → Json → Option α) : List Json → α → α × Bool
  | [], filled => (filled, false)
  | row :: rows, filled => (add filled row).elim (filled, true) (fill add rows)

def addMetric (cache : Dict String MetricMeta) : Json → Option (Dict String MetricMeta)
  | .obj row =>
    if textOf str row "id" = "" then some cache
    else (elements? (entry row "supported_dimensions")).map fun supportedDimensions =>
      cache.set (textOf str row "id")
        { id := textOf str row "id"
          label := ((entry row "label").or (entry row "display_name")).elim "" str
          view := ((entry row "view").or (entry row "cube_view")).elim "" str
          supportedDimensions
          raw := row }
  | _ => some cache

def addDimension (aliases : Dict String (List String)) : Json → Option (Dict String (List String))
  | .obj dim =>
    if textOf str dim "id" = "" then some aliases
    else (elements? (entry dim "aliases")).map fun names => aliases.set (textOf str dim "id") (names.map str)
  | _ => some aliases

/-- The rows that `_load_payload` visits, if it can. -/
def rowsOf (payload : List (String × Json)) : Option (List Json) :=
  elements? ((entry payload "metrics").or (entry payload "matches"))

/-- `_load_payload`, with the number of metrics it returns, or nothing if it raises where it stands. -/
def loadPayload (c : Content) (payload : List (String × Json)) : Content × Option Nat :=
  match (rowsOf payload).elim (.empty, true) fun rows => fill (addMetric str) rows .empty with
  | (cache, true) => ({ c with cache }, none)
  | (cache, false) =>
    match (elements? (entry payload "dimensions")).elim (.empty, true) fun dims => fill (addDimension str) dims .empty with
    | (dimensionAliases, true) => ({ c with cache, dimensionAliases }, none)
    | (dimensionAliases, false) =>
      ({ cache, dimensionAliases, grainDefaults := reply (entry payload "grain_defaults") }, some cache.rows.length)

def complete (payload : List (String × Json)) : Content := (loadPayload str {} payload).1

def Converts (payload : List (String × Json)) : Prop := (loadPayload str {} payload).2.isSome

end

/-- What a `warm` awaits: `catalogue_bootstrap`, then `catalogue_list_metrics`. -/
inductive WarmStage where
  | bootstrap
  | listMetrics
  deriving DecidableEq

/-- `tasks` are the warms begun, nothing once one is over; `ended` are the numbers they have returned, or
nothing for one that has raised; `loads` are the payloads loaded, the last one last. -/
structure Bootstrap where
  ttl : Rat
  now : Rat
  content : Content := {}
  warmedAt : Option Rat := none
  tasks : List (Option WarmStage) := []
  ended : List (Option Nat) := []
  loads : List (List (String × Json)) := []

/-- `index` is what the local index lists, metrics and dimensions, or nothing if that fails. -/
inductive BootstrapStep where
  | warm (time : Rat)
  | refreshIfStale (time : Rat)
  | answer (task : Nat) (result : Option Json) (index : Option (List Json × List Json)) (time : Rat)

namespace Bootstrap
variable (str : Json → String) (s : Bootstrap)

def isWarm : Bool := s.warmedAt.isSome && s.content.cache.rows ≠ []

def shouldRefresh (time : Rat) : Bool := s.warmedAt.elim true fun warmedAt => s.ttl < time - warmedAt

def begin : Bootstrap := { s with tasks := s.tasks ++ [some .bootstrap] }

/-- A load, and the warm goes on with its count unless it has raised. -/
def load (task : Nat) (payload : List (String × Json)) (rest : Bootstrap → Nat → Bootstrap) : Bootstrap :=
  let loaded := { s with content := (loadPayload str s.content payload).1, loads := s.loads ++ [payload] }
  (loadPayload str s.content payload).2.elim { loaded with tasks := s.tasks.set task none, ended := s.ended ++ [none] }
    (rest loaded)

/-- The stamp is set whatever the count. -/
def finish (task : Nat) (s : Bootstrap) (count : Nat) : Bootstrap :=
  { s with warmedAt := some s.now, tasks := s.tasks.set task none, ended := s.ended ++ [some count] }

def localPayload (listed : List Json × List Json) : List (String × Json) :=
  [("metrics", .arr listed.1), ("dimensions", .arr listed.2)]

def loadFromLocalIndex (task : Nat) (index : Option (List Json × List Json)) : Bootstrap :=
  index.elim (finish task s 0) fun listed => s.load str task (localPayload listed) (finish task)

/-- Without a metric in the first reply the second call is made. -/
def afterBootstrap (task : Nat) (result : Option Json) : Bootstrap :=
  s.load str task (reply result) fun s count =>
    if count = 0 then { s with tasks := s.tasks.set task (some .listMetrics) } else finish task s count

def afterListMetrics (task : Nat) (result : Option Json) (index : Option (List Json × List Json)) : Bootstrap :=
  s.load str task (reply result) fun s count =>
    if count = 0 then s.loadFromLocalIndex str task index else finish task s count

def step (s : Bootstrap) : BootstrapStep → Option Bootstrap
  | .warm time => if time < s.now then none else some { s with now := time }.begin
  | .refreshIfStale time =>
    if time < s.now then none
    else if s.shouldRefresh time then some { s with now := time }.begin
    else some { s with now := time }
  | .answer task result index time =>
    if time < s.now then none
    else s.tasks[task]?.join.map fun
      | .bootstrap => { s with now := time }.afterBootstrap str task result
      | .listMetrics => { s with now := time }.afterListMetrics str task result index

/-! The runs without a payload that cannot be converted. -/

def Loads (s : Bootstrap) : BootstrapStep → Prop
  | .answer task result index _ => ∀ stage ∈ s.tasks[task]?.join, Converts str (reply result) ∧
      (stage = .listMetrics → (loadPayload str {} (reply result)).2 = some 0 →
        ∀ listed ∈ index, Converts str (localPayload listed))
  | _ => True

instance (payload : List (String × Json)) : Decidable (Converts str payload) :=
  inferInstanceAs (Decidable (_ = true))

instance (s : Bootstrap) : (a : BootstrapStep) → Decidable (Loads str s a)
  | .answer .. => inferInstanceAs (Decidable (∀ stage ∈ _, _ ∧ (_ → _ → ∀ listed ∈ _, _)))
  | .warm _ | .refreshIfStale _ => isTrue trivial

/-- What the readers see is the complete content of the last load, and no warm has raised. -/
structure Whole (s : Bootstrap) : Prop where
  content : s.content = s.loads.getLast?.elim {} (complete str)
  ended : none ∉ s.ended

/-! One load. -/

variable {payload : List (String × Json)} {task : Nat}

/-- What a payload that converts leaves depends on nothing that was there before. -/
theorem loadPayload_eq (c : Content) {count : Nat} (h : (loadPayload str {} payload).2 = some count) :
    loadPayload str c payload = (complete str payload, some count) := by
  refine Prod.ext ?_ ?_ <;> revert h <;> unfold complete loadPayload
  all_goals
    split
    · simp
    · split <;> simp

theorem loadPayload_count {c : Content} {count : Nat} (h : (loadPayload str c payload).2 = some count) :
    (loadPayload str c payload).1.cache.rows.length = count := by
  revert h
  unfold loadPayload
  split
  · simp
  · split
    · simp
    · exact fun h => Option.some.inj h

variable {str} {s : Bootstrap}

theorem load_eq {rest : Bootstrap → Nat → Bootstrap} {count : Nat} (h : (loadPayload str {} payload).2 = some count) :
    s.load str task payload rest =
      rest { s with content := complete str payload, loads := s.loads ++ [payload] } count := by
  rw [load, loadPayload_eq str s.content h]
  rfl

theorem Whole.loaded (h : Whole str s) (payload : List (String × Json)) :
    Whole str { s with content := complete str payload, loads := s.loads ++ [payload] } :=
  ⟨by simp, h.ended⟩

theorem Whole.finish (h : Whole str s) (task count : Nat) : Whole str (finish task s count) :=
  ⟨h.content, by simpa [Bootstrap.finish] using h.ended⟩

theorem Whole.loadFromLocalIndex (h : Whole str s) {index : Option (List Json × List Json)}
    (hindex : ∀ listed ∈ index, Converts str (localPayload listed)) :
    Whole str (s.loadFromLocalIndex str task index) := by
  cases index with
  | none => exact h.finish task 0
  | some listed =>
    obtain ⟨count, hcount⟩ := isSome_iff_exists.mp (hindex listed rfl)
    rw [Bootstrap.loadFromLocalIndex, elim_some, load_eq hcount]
    exact (h.loaded _).finish task count

theorem Whole.afterBootstrap (h : Whole str s) {result : Option Json} (hresult : Converts str (reply result)) :
    Whole str (s.afterBootstrap str task result) := by
  obtain ⟨count, hcount⟩ := isSome_iff_exists.mp hresult
  rw [Bootstrap.afterBootstrap, load_eq hcount]
  have hloaded := h.loaded (reply result)
  split
  · exact ⟨hloaded.content, hloaded.ended⟩
  · exact hloaded.finish task count

theorem Whole.afterListMetrics (h : Whole str s) {result : Option Json} {index : Option (List Json × List Json)}
    (hresult : Converts str (reply result))
    (hindex : (loadPayload str {} (reply result)).2 = some 0 → ∀ listed ∈ index, Converts str (localPayload listed)) :
    Whole str (s.afterListMetrics str task result index) := by
  obtain ⟨count, hcount⟩ := isSome_iff_exists.mp hresult
  rw [Bootstrap.afterListMetrics, load_eq hcount]
  have hloaded := h.loaded (reply result)
  split
  · rename_i hzero
    exact hloaded.loadFromLocalIndex (hindex (hzero ▸ hcount))
  · exact hloaded.finish task count

theorem Whole.step {a : BootstrapStep} {s' : Bootstrap} (h : Whole str s) (hloads : Loads str s a)
    (ha : s.step str a = some s') : Whole str s' := by
  cases a with
  | warm time =>
    simp only [Bootstrap.step] at ha
    split at ha
    · cases ha
    · obtain rfl := Option.some.inj ha
      exact ⟨h.content, h.ended⟩
  | refreshIfStale time =>
    simp only [Bootstrap.step] at ha
    split at ha
    · cases ha
    · split at ha <;>
      · obtain rfl := Option.some.inj ha
        exact ⟨h.content, h.ended⟩
  | answer task result index time =>
    simp only [Bootstrap.step] at ha
    split at ha
    · cases ha
    · obtain ⟨stage, hstage, rfl⟩ := map_eq_some_iff.mp ha
      have hnow : Whole str { s with now := time } := ⟨h.content, h.ended⟩
      obtain ⟨hresult, hindex⟩ := hloads stage hstage
      cases stage with
      | bootstrap => exact hnow.afterBootstrap hresult
      | listMetrics => exact hnow.afterListMetrics hresult (hindex rfl)

/-! A refresh whose every source has failed. -/

/-- The warm that has ended has found no metric, and has left the stamp. -/
def Exhausted (s s' : Bootstrap) : Prop :=
  s'.ended = s.ended ++ [some 0] → s'.content.entries = [] ∧ s'.warmedAt = some s'.now

theorem exhausted_load {rest : Bootstrap → Nat → Bootstrap}
    (hrest : ∀ loaded : Bootstrap, loaded.ended = s.ended → Exhausted s (rest loaded loaded.content.cache.rows.length)) :
    Exhausted s (s.load str task payload rest) := by
  unfold load
  cases hcount : (loadPayload str s.content payload).2 with
  | none =>
    intro hended
    simp at hended
  | some count =>
    rw [← loadPayload_count str hcount]
    exact hrest { s with content := (loadPayload str s.content payload).1, loads := s.loads ++ [payload] } rfl

theorem exhausted_finish {loaded : Bootstrap} (hloaded : loaded.ended = s.ended) :
    Exhausted s (finish task loaded loaded.content.cache.rows.length) := by
  intro hended
  rw [finish, hloaded, List.append_cancel_left_eq, List.singleton_inj, some_inj, List.length_eq_zero_iff] at hended
  exact ⟨by simp [finish, Content.entries, Dict.values, hended], rfl⟩

theorem exhausted_answer {task : Nat} {result : Option Json} {index : Option (List Json × List Json)} {stage : WarmStage} :
    Exhausted s (match stage with
      | .bootstrap => s.afterBootstrap str task result
      | .listMetrics => s.afterListMetrics str task result index) := by
  cases stage with
  | bootstrap =>
    refine exhausted_load fun loaded hloaded => ?_
    split
    · intro hended
      simp [hloaded] at hended
    · exact exhausted_finish hloaded
  | listMetrics =>
    refine exhausted_load fun loaded hloaded => ?_
    split
    · rename_i hzero
      cases index with
      | none =>
        rw [loadFromLocalIndex, elim_none, ← hzero]
        exact exhausted_finish hloaded
      | some listed =>
        have hlocal : Exhausted loaded (loaded.load str task (localPayload listed) (finish task)) :=
          exhausted_load fun again hagain => exhausted_finish hagain
        rw [Exhausted, ← hloaded]
        exact hlocal
    · exact exhausted_finish hloaded

theorem exhausted_step {a : BootstrapStep} {s' : Bootstrap} (ha : s.step str a = some s') : Exhausted s s' := by
  cases a with
  | warm time =>
    simp only [step] at ha
    split at ha
    · cases ha
    · obtain rfl := Option.some.inj ha
      intro hended
      simp [begin] at hended
  | refreshIfStale time =>
    simp only [step] at ha
    split at ha
    · cases ha
    · split at ha <;>
      · obtain rfl := Option.some.inj ha
        intro hended
        simp [begin] at hended
  | answer task result index time =>
    simp only [step] at ha
    split at ha
    · cases ha
    · obtain ⟨stage, -, rfl⟩ := map_eq_some_iff.mp ha
      exact exhausted_answer (s := { s with now := time })

/-- No warm raises, and the readers always see one load as a whole, the last one; a refresh whose every
source has failed leaves them nothing, and the next one is made once the stamp is older than the TTL. -/
theorem refresh_whole (str : Json → String) (ttl now : Rat) (steps : List BootstrapStep) (s : Bootstrap)
    (h : Machine.exec (step str) { ttl, now } steps = some s)
    (hloads : Machine.Along (step str) (Loads str) { ttl, now } steps) :
    none ∉ s.ended ∧ s.content = s.loads.getLast?.elim {} (complete str) ∧
      (∀ a s', s.step str a = some s' → s'.ended = s.ended ++ [some 0] →
        s'.content.entries = [] ∧ s'.warmedAt = some s'.now) ∧
      ∀ time, s.now ≤ time → (∀ warmedAt ∈ s.warmedAt, s.ttl < time - warmedAt) →
        s.step str (.refreshIfStale time) = some { s with now := time, tasks := s.tasks ++ [some .bootstrap] } := by
  have hwhole : Whole str s := Machine.invariant_along (fun _ _ _ => Whole.step) ⟨rfl, by simp⟩ hloads h
  refine ⟨hwhole.ended, hwhole.content, fun a s' ha => exhausted_step ha, fun time htime hstale => ?_⟩
  have hrefresh : s.shouldRefresh time = true := by
    rw [shouldRefresh]
    cases hwarmed : s.warmedAt with
    | none => rfl
    | some warmedAt => exact decide_eq_true (hstale warmedAt hwarmed)
  simp only [step, if_neg htime.not_gt, hrefresh, if_true]
  rfl

/-- `str` on texts. -/
def plain : Json → String
  | .str s => s
  | _ => "?"

def oneMetric : Json := .obj [("metrics", .arr [.null, .obj [("id", .str "cac"), ("label", .str "CAC")]])]

def failedRefresh : List BootstrapStep :=
  [.refreshIfStale 0, .answer 0 (some oneMetric) none 1, .refreshIfStale 902, .answer 1 none none 903]

theorem refresh_whole_failedRefresh :
    ∃ s, Machine.exec (step plain) { ttl := 900, now := 0 } (failedRefresh ++ [.answer 1 (some (.arr [])) none 904]) = some s ∧
      none ∉ s.ended := by
  have hrun : (Machine.exec (step plain) { ttl := 900, now := 0 }
      (failedRefresh ++ [.answer 1 (some (.arr [])) none 904])).isSome := by decide +kernel
  obtain ⟨s, hs⟩ := isSome_iff_exists.mp hrun
  exact ⟨s, hs, (refresh_whole plain 900 0 _ s hs (by decide +kernel)).1⟩

/-- While the second source is awaited, and after the last one has failed, the readers see no metric; the
refresh after it is not tried; and a list that is a number makes `warm` raise. -/
theorem refresh_forgets :
    (∃ s ∈ Machine.exec (step plain) { ttl := 900, now := 0 } (failedRefresh.take 2), s.content.has "cac" = true) ∧
    (∃ s ∈ Machine.exec (step plain) { ttl := 900, now := 0 } failedRefresh, s.content.has "cac" = false) ∧
    (∃ s ∈ Machine.exec (step plain) { ttl := 900, now := 0 }
      (failedRefresh ++ [.answer 1 none none 904, .refreshIfStale 905]),
        s.content.has "cac" = false ∧ s.tasks = [none, none]) ∧
    ∃ s ∈ Machine.exec (step plain) { ttl := 900, now := 0 }
      [.warm 0, .answer 0 (some (.obj [("metrics", .num 5)])) none 1], none ∈ s.ended := by
  decide +kernel

end Bootstrap
end SelericSwarm.Catalogue
