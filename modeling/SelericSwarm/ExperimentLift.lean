import SelericSwarm.AnomalyDetection
import SelericSwarm.LastWrites
import SelericSwarm.PercentSigns

/-! `evaluate_experiment`: the lift of each treatment over the control, from the evidence that carries their labels. -/
namespace SelericSwarm.Analytics.Experiments
open Keyed

/-! `registry.py`. -/

structure Variant where
  name : String
  label : String
  isControl : Bool := false

structure Experiment where
  experimentId : String
  metricId : String
  variants : List Variant

def Experiment.control (e : Experiment) : Option Variant := e.variants.find? Variant.isControl

def Experiment.treatments (e : Experiment) : List Variant := e.variants.filter fun v => !v.isControl

abbrev ExperimentRegistry := Table Experiment.experimentId

/-! `toolsets/experiments.py`. -/

def calculationVersion : String := "experiments.v1"

def warnNoEvidence : String := "policy:no_evidence"

def warnUnknownExperiment : String := "policy:unknown_experiment"

def warnMissingVariantEvidence : String := "policy:missing_variant_evidence"

def refuse (summary warning : String) : ToolResult := { insufficient summary with warnings := [warning] }

/-- What a reading writes into `by_label`, under the labels that are looked at. -/
def stamps (labelsOf : EvidenceArtifact → List String) (r : Reading) : List (String × (String × ℚ)) :=
  match r.2.value with
  | none => []
  | some value => (labelsOf r.2).map fun label => (label, (r.1, value))

/-- `evidence.dimensions.values()` -/
def allLabels (e : EvidenceArtifact) : List String := e.dimensions.values

section Tool
variable (py : Runtime) (deps : Agent.SelericDeps)

/-- The loop over the artifacts; the first that cannot be read ends it. -/
def readStamped : List Artifact → Except ToolResult (List Reading)
  | [] => .ok []
  | a :: artifacts =>
    if a.artifactType ≠ "evidence" then
      .error (refuse ("artifact " ++ a.id ++ " is " ++ py.repr a.artifactType ++ ", not evidence") warnNoEvidence)
    else
      match py.evidence a.payload with
      | .error exc =>
        .error (refuse ("artifact " ++ a.id ++ " is not a valid EvidenceArtifact: " ++ exc) warnNoEvidence)
      | .ok evidence => (readStamped artifacts).map ((a.id, evidence) :: ·)

def loadStamped (store : ArtifactStore) (evidenceIds : List String) : Except ToolResult (List Reading) :=
  if evidenceIds = [] then .error (refuse "no evidence_ids supplied" warnNoEvidence)
  else
    let artifacts := evidenceIds.filterMap store.get?
    let missing := evidenceIds.filter fun id => id ∉ artifacts.map Artifact.id
    if missing ≠ [] then
      .error (refuse ("evidence not found in store: " ++ ", ".intercalate missing) warnNoEvidence)
    else readStamped py artifacts

/-- `f"{q:+.1%}"` -/
def signedPercent (q : ℚ) : String := (if q < 0 then "" else "+") ++ Decimals.fixed 1 (q * 100) ++ "%"

def evaluation (e : Experiment) (control : String × ℚ) (variant : Variant) (found : String × ℚ) : Finding :=
  let result := PercentSigns.lift variant.name control.2 found.2
  let metrics := ((Dict.empty.set "control" control.2).set "variant" found.2).set "absolute_lift" result.absolute
  { findingType := "experiment_evaluation"
    statement := e.experimentId ++ " variant " ++ variant.name ++ ": " ++ e.metricId ++ " " ++
      Decimals.general 4 found.2 ++ " vs control " ++ Decimals.general 4 control.2 ++ ", " ++
      signedGeneral 4 result.absolute ++
      (match result.relative with
      | some relative => " (" ++ signedPercent relative ++ ")"
      | none => " (relative undefined, control is 0)") ++ "; significance unknown"
    evidenceIds := [control.1, found.1]
    metrics := result.relative.elim metrics fun relative => metrics.set "relative_lift" relative
    cited := List.cons_ne_nil _ _ }

/-- The treatments that have evidence, with their findings. -/
def evaluations (e : Experiment) (byLabel : Dict String (String × ℚ)) (control : String × ℚ) : List (Variant × Finding) :=
  e.treatments.filterMap fun variant =>
    (byLabel.get? variant.label).map fun found => (variant, evaluation e control variant found)

/-- One warning for each treatment without evidence. -/
def evaluationWarnings (e : Experiment) (byLabel : Dict String (String × ℚ)) : List String :=
  "significance not assessed: evidence carries no interval or sample size" ::
    (e.treatments.filter fun variant => (byLabel.get? variant.label).isNone).map fun variant =>
      warnMissingVariantEvidence ++ ":" ++ variant.name

def experimentProvenance (evidenceIds : List String) : ArtifactProvenance where
  evidenceIds := evidenceIds
  calculationVersion := some calculationVersion

/-- The findings are put one after the other; what was put before an exception stays. -/
def putEvaluations : List Finding → Desk → Option (List String) × Desk
  | [], desk => (some [], desk)
  | f :: findings, desk =>
    let artifact := { desk.findingOf py deps f with provenance := experimentProvenance f.evidenceIds }
    match desk.artifacts.put artifact with
    | none => (none, { desk with issued := desk.issued + 1 })
    | some store =>
      match putEvaluations findings { artifacts := store, issued := desk.issued + 1 } with
      | (none, desk) => (none, desk)
      | (some ids, desk) => (some (artifact.id :: ids), desk)

/-- What the tool answers, and what it leaves in the store; no answer where a write raises. -/
def evaluateExperiment (registry : ExperimentRegistry) (desk : Desk) (experimentId : String)
    (evidenceIds : List String) : Option ToolResult × Desk :=
  match registry.get? experimentId with
  | none =>
    (some (refuse ("no experiment " ++ py.repr experimentId ++ " is registered; refusing to score evidence " ++
      "against an undeclared design") warnUnknownExperiment), desk)
  | some e =>
    match e.control with
    | none =>
      (some (refuse (experimentId ++ " declares no control variant; lift is undefined without one")
        warnMissingVariantEvidence), desk)
    | some control =>
      match loadStamped py desk.artifacts evidenceIds with
      | .error refusal => (some refusal, desk)
      | .ok read =>
        let byLabel := Dict.written (stamps allLabels) read
        match byLabel.get? control.label with
        | none =>
          (some (refuse ("no evidence stamped with the control label " ++ py.repr control.label ++ "; " ++
            "evaluate_experiment needs drilldown output carrying each variant's dimension value, not a pooled " ++
            "query_metrics breakdown") warnMissingVariantEvidence), desk)
        | some found =>
          match putEvaluations py deps ((evaluations e byLabel found).map Prod.snd) desk with
          | (none, desk) => (none, desk)
          | (some [], desk) =>
            (some (refuse ("no treatment variant of " ++ experimentId ++ " had stamped evidence")
              warnMissingVariantEvidence), desk)
          | (some ids, desk) =>
            (some
              { success := true
                artifactIds := ids
                summary := experimentId ++ ": " ++ toString ids.length ++ " treatment(s) evaluated against control " ++
                  control.name
                warnings := evaluationWarnings e byLabel
                basis := experimentProvenance evidenceIds
                envelope := Agent.envelope_of_success ids }, desk)

/-- What an evaluation writes, treatment by treatment, where the labels are looked for among some of the dimensions. -/
def findingsBy (labelsOf : EvidenceArtifact → List String) (store : ArtifactStore) (e : Experiment)
    (evidenceIds : List String) : List (Variant × Finding) :=
  match e.control, loadStamped py store evidenceIds with
  | some control, .ok read =>
    let byLabel := Dict.written (stamps labelsOf) read
    (byLabel.get? control.label).elim [] (evaluations e byLabel)
  | _, _ => []

end Tool
end SelericSwarm.Analytics.Experiments
