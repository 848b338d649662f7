import Mathlib.Data.List.Infix
import SelericSwarm.Calendar
import SelericSwarm.Decimals
import SelericSwarm.MetricFeatures
import SelericSwarm.Submission

/-! Domain health: the state of a domain's metrics resolved into a snapshot, and the snapshots stored. -/
namespace SelericSwarm.DomainHealth
open Keyed
open BusinessState (Features FeatureValue QualityFlag)

inductive Freshness where
  | current | late | stale | unknown
  deriving DecidableEq, Repr

inductive MetricStateStatus where
  | ok | partially | unavailable
  deriving DecidableEq, Repr

inductive Direction where
  | up | down
  deriving DecidableEq, Repr

/-- What the business state service answers, as far as the resolver reads it. -/
structure MetricState where
  actual : Option ℚ := none
  features : Features := .empty
  freshness : Freshness := .unknown
  directionBad : Option Direction := none
  qualityFlags : List QualityFlag := []
  queryId : Option String := none
  status : MetricStateStatus := .unavailable

inductive DomainStatus where
  | ok | degraded | unavailable
  deriving DecidableEq, Repr

structure ResolvedMetric where
  metricId : String
  value : Option ℚ := none
  periodDeltaPct : Option ℚ := none
  rollingMean7d : Option ℚ := none
  directionBad : Option Direction := none
  freshness : Freshness := .unknown
  qualityFlags : List QualityFlag := []
  deriving DecidableEq

structure DomainStateSnapshot where
  domain : String
  brandId : String
  asOf : Date
  computedAt : String
  window : Option String × Option String
  status : DomainStatus
  metrics : List ResolvedMetric
  headlineSignals : List String
  queryIds : List String
  deriving DecidableEq

/-! `config/domain_health_profiles.yaml`. -/

structure ProfileMetric where
  metricId : String
  windowedPoint : Bool := false
  deriving DecidableEq

structure HealthRule where
  id : String
  metricId : String
  rule : Option String
  threshold : ℚ
  deriving DecidableEq

structure DomainProfile where
  metrics : List ProfileMetric := []
  healthSignals : List HealthRule := []

/-! `resolver.py`. -/

/-- `_RULE_COMPARATORS`, with the direction that the signal names. -/
def comparator : String → Option ((ℚ → ℚ → Bool) × String)
  | "period_delta_pct_below" => some (fun value threshold => value < threshold, "below")
  | "period_delta_pct_above" => some (fun value threshold => threshold < value, "above")
  | _ => none

def metricOf (resolved : List ResolvedMetric) (metricId : String) : Option ResolvedMetric :=
  (Dict.indexed ResolvedMetric.metricId resolved).get? metricId

def HealthRule.signal? (resolved : List ResolvedMetric) (rule : HealthRule) : Option String :=
  match rule.rule.bind comparator, (metricOf resolved rule.metricId).bind ResolvedMetric.periodDeltaPct with
  | some (breached, direction), some value =>
    if breached value rule.threshold then
      some (rule.id ++ ": " ++ rule.metricId ++ " period_delta_pct " ++ Decimals.fixed 1 value ++ "% " ++ direction ++
        " threshold " ++ Decimals.fixed 1 rule.threshold ++ "%")
    else none
  | _, _ => none

def headlineSignals (rules : List HealthRule) (resolved : List ResolvedMetric) : List String :=
  rules.filterMap (HealthRule.signal? resolved)

def windowedPointDeltaPct (current previous : Option ℚ) : Option ℚ :=
  match current, previous with
  | some current, some previous => if previous = 0 then none else some ((current - previous) / previous * 100)
  | _, _ => none

def featureValue (state : MetricState) (featureId : String) : Option ℚ :=
  (state.features.get? featureId).bind FeatureValue.value

def rollUp (status : DomainStatus) (state : MetricState) : DomainStatus :=
  match state.status with
  | .unavailable => .unavailable
  | .partially => if status = .ok then .degraded else status
  | .ok => status

/-- One turn of the loop over the profile's metrics. -/
def resolveMetric (previous : List ResolvedMetric) (entry : ProfileMetric) (state : MetricState) : ResolvedMetric where
  metricId := entry.metricId
  value := state.actual
  periodDeltaPct :=
    if entry.windowedPoint then
      windowedPointDeltaPct state.actual ((metricOf previous entry.metricId).bind ResolvedMetric.value)
    else featureValue state "period_delta_pct"
  rollingMean7d := if entry.windowedPoint then none else featureValue state "rolling_mean_7d"
  directionBad := state.directionBad
  freshness := state.freshness
  qualityFlags := state.qualityFlags

/-- A call of `run_once`: its domains, brand and date, the clock, and the answer of the business state service to the
question about a domain's metric in this place. -/
structure Call where
  domains : List String
  brandId : String
  asOf : Date
  window : Option String × Option String := (none, none)
  computedAt : String := ""
  state : String → Nat → MetricState

def Call.states (call : Call) (domain : String) (profile : DomainProfile) : List (ProfileMetric × MetricState) :=
  profile.metrics.mapIdx fun i entry => (entry, call.state domain i)

/-- `resolve`, after the latest snapshot has been read. -/
def resolve (call : Call) (domain : String) (profile : DomainProfile) (previous : Option DomainStateSnapshot) :
    DomainStateSnapshot :=
  let before := (previous.map DomainStateSnapshot.metrics).getD []
  let states := call.states domain profile
  let resolved := states.map fun (entry, state) => resolveMetric before entry state
  { domain
    brandId := call.brandId
    asOf := call.asOf
    computedAt := call.computedAt
    window := call.window
    status := states.foldl (fun status (_, state) => rollUp status state) .ok
    metrics := resolved
    headlineSignals := headlineSignals profile.healthSignals resolved
    queryIds := states.filterMap fun (_, state) => state.queryId.filter (· ≠ "") }

/-! `snapshot_store.py`. -/

def safeChar (c : Char) : Bool := c.isAlphanum || c = '.' || c = '_' || c = '-'

/-- `_safe_path_segment`; no answer where the text is unsafe. A date is always safe. -/
def safePathSegment (value : String) : Option String :=
  let text := (strip value).toList
  if text ≠ [] ∧ text.all safeChar ∧ ¬['.', '.'] <:+: text then some (String.ofList text) else none

/-- The file of a snapshot: its directory, and the date that it is named by. -/
structure StoredFile where
  directory : String
  asOf : Date
  snapshot : DomainStateSnapshot

def StoredFile.path (f : StoredFile) : String × Date := (f.directory, f.asOf)

abbrev SnapshotStore := Table StoredFile.path

namespace SnapshotStore
variable (store : SnapshotStore)

def save (directory : String) (snapshot : DomainStateSnapshot) : SnapshotStore :=
  store.put { directory, asOf := snapshot.asOf, snapshot }

def snapshotsOf (directory : String) : List DomainStateSnapshot :=
  (store.rows.filter fun f => f.directory = directory).map StoredFile.snapshot

/-- The later of the two snapshots; the names of the files sort as their dates do. -/
def newer (best : Option DomainStateSnapshot) (s : DomainStateSnapshot) : Option DomainStateSnapshot :=
  match best with
  | none => some s
  | some b => if b.asOf.toordinal < s.asOf.toordinal then some s else some b

def newest (snapshots : List DomainStateSnapshot) : Option DomainStateSnapshot := snapshots.foldl newer none

/-- `get_latest`, in the directory of the domain. -/
def getLatest (directory : String) : Option DomainStateSnapshot := newest (store.snapshotsOf directory)

end SnapshotStore

/-! `scheduler.py`. -/

section RunOnce
variable (profiles : String → Option DomainProfile)

/-- The profile of a domain and its directory; without them the call raises. -/
def known (domain : String) : Option (DomainProfile × String) :=
  match profiles domain, safePathSegment domain with
  | some profile, some directory => some (profile, directory)
  | _, _ => none

/-- One turn of the loop over the domains: the snapshot, and the store that has it. -/
def resolveDomain (store : SnapshotStore) (call : Call) (domain : String) (place : DomainProfile × String) :
    DomainStateSnapshot × SnapshotStore :=
  let snapshot := resolve call domain place.1 (store.getLatest place.2)
  (snapshot, store.save place.2 snapshot)

def runDomains (call : Call) : SnapshotStore → List String → SnapshotStore
  | store, [] => store
  | store, domain :: domains =>
    match known profiles domain with
    | none => store
    | some place => runDomains call (resolveDomain store call domain place).2 domains

/-- `run_once`: what is stored when the call ends, also where it raises at one of its domains. -/
def runOnce (store : SnapshotStore) (call : Call) : SnapshotStore := runDomains profiles call store call.domains

end RunOnce
end SelericSwarm.DomainHealth
