import Mathlib.Algebra.Order.Field.Rat
import Mathlib.Tactic.Linarith
import SelericSwarm.Machine
import SelericSwarm.Table

/-! Cooldowns per model, shared by all fallback chains of the process, and the passes over the
chains side by side. -/
open List Option

namespace SelericSwarm.Agent
open Keyed

structure ModelHealth where
  cooledUntil : Dict String Rat := .empty
  known : List String := []

/-- A `ModelHTTPError` with its status code, or another `ModelAPIError`. -/
inductive ModelFailure where
  | http (statusCode : Int)
  | api
  deriving DecidableEq

def ModelFailure.cooldownFor : ModelFailure → Rat
  | .http statusCode =>
    if statusCode = 429 then 45
    else if 500 ≤ statusCode then 30
    else if statusCode = 401 ∨ statusCode = 402 ∨ statusCode = 403 then 300
    else 0
  | .api => 90

namespace ModelHealth
variable (h : ModelHealth)

def register (key : String) : ModelHealth := { h with known := if key ∈ h.known then h.known else h.known ++ [key] }

def cool (key : String) (seconds now : Rat) : ModelHealth := { h with cooledUntil := h.cooledUntil.set key (now + seconds) }

def recover (key : String) : ModelHealth := { h with cooledUntil := Table.erase h.cooledUntil key }

def cooling (key : String) (now : Rat) : Bool := now < h.cooledUntil.getD key 0

/-- `should_skip`; each model is looked at with a clock reading of its own. -/
def shouldSkip (key : String) (now : Rat) (readings : String → Rat) : Bool :=
  h.cooling key now && h.known.any fun other => other ≠ key && !h.cooling other (readings other)

end ModelHealth

/-- What happens to the cooldowns and to the passes. -/
inductive HealthEvent where
  | failed (key : String) (time seconds : Rat)
  | recovered (key : String)
  | skipped (key : String) (time : Rat)
  | exhausted (chain called : List String)
  deriving DecidableEq

/-- One request walking its chain: `rest` begins with the model whose turn it is, and is empty at the end. -/
structure ChainPass where
  chain : List String
  rest : List String
  called : List String := []
  waiting : Bool := false

/-- `streams` are the models with a response still being streamed; the last event of `log` comes first. -/
structure Serving where
  health : ModelHealth := {}
  now : Rat
  chains : List (List String) := []
  passes : List ChainPass := []
  streams : List String := []
  log : List HealthEvent := []

inductive ServingStep where
  | build (chain : List String)
  | request (chain : List String)
  | gate (pass : Nat) (time : Rat) (readings : String → Rat) (last : Rat)
  | answers (pass : Nat) (streams : Bool)
  | fails (pass : Nat) (failure : ModelFailure) (time : Rat)
  | raises (pass : Nat)
  | streamEnds (stream : Nat)
  | streamFails (stream : Nat) (failure : ModelFailure) (time : Rat)
  | streamStops (stream : Nat)

namespace Serving
variable (w : Serving)

/-- The next model's turn; behind the last one every model has raised a `ModelAPIError`. -/
def advance (i : Nat) (p : ChainPass) : Serving :=
  if p.rest.tail = [] then
    { w with passes := w.passes.set i { p with rest := [], waiting := false }, log := .exhausted p.chain p.called :: w.log }
  else { w with passes := w.passes.set i { p with rest := p.rest.tail, waiting := false } }

def recordFailure (key : String) (failure : ModelFailure) (time : Rat) : Serving :=
  if failure.cooldownFor = 0 then { w with now := time }
  else { w with
    now := time
    health := w.health.cool key failure.cooldownFor time
    log := .failed key time failure.cooldownFor :: w.log }

def recordSuccess (key : String) : Serving :=
  { w with health := w.health.recover key, log := .recovered key :: w.log }

def turn (i : Nat) (waiting : Bool) : Option (ChainPass × String) :=
  w.passes[i]?.bind fun p => if p.waiting = waiting then p.rest.head?.map fun key => (p, key) else none

def gate (i : Nat) (p : ChainPass) (key : String) (time : Rat) (readings : String → Rat) (last : Rat) : Serving :=
  if w.health.shouldSkip key time readings then
    ({ w with now := last, log := .skipped key time :: w.log } : Serving).advance i p
  else { w with now := last, passes := w.passes.set i { p with called := p.called ++ [key], waiting := true } }

def step (w : Serving) : ServingStep → Option Serving
  | .build chain =>
    if chain = [] then none
    else some { w with health := chain.foldl ModelHealth.register w.health, chains := w.chains ++ [chain] }
  | .request chain =>
    if chain ∈ w.chains then some { w with passes := w.passes ++ [{ chain, rest := chain }] } else none
  | .gate i time readings last =>
    if w.now ≤ time ∧ time ≤ last ∧ ∀ key ∈ w.health.known, time ≤ readings key ∧ readings key ≤ last then
      (w.turn i false).map fun (p, key) => w.gate i p key time readings last
    else none
  | .answers i streams => (w.turn i true).map fun (p, key) =>
    let w := { w with passes := w.passes.set i { p with rest := [], waiting := false } }
    if streams then { w with streams := w.streams ++ [key] } else w.recordSuccess key
  | .fails i failure time =>
    if w.now ≤ time then (w.turn i true).map fun (p, key) => (w.recordFailure key failure time).advance i p
    else none
  | .raises i => (w.turn i true).map fun (p, _) =>
    { w with passes := w.passes.set i { p with rest := [], waiting := false } }
  | .streamEnds j => w.streams[j]?.map fun key => { w.recordSuccess key with streams := w.streams.eraseIdx j }
  | .streamFails j failure time =>
    if w.now ≤ time then
      w.streams[j]?.map fun key => { w.recordFailure key failure time with streams := w.streams.eraseIdx j }
    else none
  | .streamStops j => w.streams[j]?.map fun _ => { w with streams := w.streams.eraseIdx j }

end Serving

/-! The laws of the log. -/

/-- The end of the last cooldown recorded for the model, unless it has succeeded since. -/
def cooldownEnd : List HealthEvent → String → Option Rat
  | [], _ => none
  | .failed model time seconds :: older, key => if model = key then some (time + seconds) else cooldownEnd older key
  | .recovered model :: older, key => if model = key then none else cooldownEnd older key
  | .skipped .. :: older, key | .exhausted .. :: older, key => cooldownEnd older key

/-- A failure shortens no cooldown in force, a model is skipped within its cooldown only, and a pass
in which every model fails has called one. -/
def HealthEvent.Lawful (older : List HealthEvent) : HealthEvent → Prop
  | .failed key time seconds => ∀ last ∈ cooldownEnd older key, time < last → last ≤ time + seconds
  | .recovered _ => True
  | .skipped key time => ∃ last ∈ cooldownEnd older key, time < last
  | .exhausted chain called => ∃ key ∈ chain, key ∈ called

def Lawful : List HealthEvent → Prop
  | [] => True
  | event :: older => Lawful older ∧ event.Lawful older

instance (older : List HealthEvent) : (event : HealthEvent) → Decidable (event.Lawful older)
  | .failed .. => inferInstanceAs (Decidable (∀ last ∈ cooldownEnd older _, _))
  | .recovered _ => isTrue trivial
  | .skipped .. => inferInstanceAs (Decidable (∃ last ∈ cooldownEnd older _, _))
  | .exhausted .. => inferInstanceAs (Decidable (∃ key ∈ _, _))

instance decidableLawful : (log : List HealthEvent) → Decidable (Lawful log)
  | [] => isTrue trivial
  | _ :: older =>
    have := decidableLawful older
    inferInstanceAs (Decidable (_ ∧ _))

namespace Serving
variable (w : Serving)

/-- The new cooldown, if there is one, ends no earlier than one still in force. -/
def Outlasts (key : String) (failure : ModelFailure) (time : Rat) : Prop :=
  failure.cooldownFor = 0 ∨
    ∀ last ∈ w.health.cooledUntil.get? key, time < last → last ≤ time + failure.cooldownFor

/-- The steps that keep the laws: a model is skipped for a recorded cooldown and, where nothing has
been called yet, only before another model of the chain. -/
def Sound (w : Serving) : ServingStep → Prop
  | .gate i time readings _ => ∀ turn ∈ w.turn i false, w.health.shouldSkip turn.2 time readings = true →
      (w.health.cooledUntil.get? turn.2).isSome ∧ (turn.1.rest.tail = [] → turn.1.called ≠ [])
  | .fails i failure time => ∀ turn ∈ w.turn i true, w.Outlasts turn.2 failure time
  | .streamFails j failure time => ∀ key ∈ w.streams[j]?, w.Outlasts key failure time
  | _ => True

/-- The models called and the models to come belong to the chain, and a model that is asked has been called. -/
structure Walked (p : ChainPass) : Prop where
  rest : ∀ key ∈ p.rest, key ∈ p.chain
  called : ∀ key ∈ p.called, key ∈ p.chain
  waiting : p.waiting = true → ∀ key ∈ p.rest.head?, key ∈ p.called

/-- The dictionary holds what the log says, and every pass keeps to its chain. -/
structure Kept (w : Serving) : Prop where
  ends : ∀ key, w.health.cooledUntil.get? key = cooldownEnd w.log key
  passes : ∀ p ∈ w.passes, Walked p

variable {w}
variable {p : ChainPass} {key : String}

theorem turn_eq {i : Nat} {waiting : Bool} (h : w.turn i waiting = some (p, key)) :
    p ∈ w.passes ∧ p.waiting = waiting ∧ p.rest.head? = some key := by
  obtain ⟨q, hq, h⟩ := bind_eq_some_iff.mp h
  split at h
  · rename_i hwaiting
    obtain ⟨k, hk, h⟩ := map_eq_some_iff.mp h
    obtain ⟨rfl, rfl⟩ := Prod.mk.inj h
    exact ⟨mem_of_getElem? hq, hwaiting, hk⟩
  · cases h

/-! A pass goes on. -/

theorem Walked.ended (h : Walked p) : Walked { p with rest := [], waiting := false } :=
  ⟨by simp, h.called, by simp⟩

theorem Walked.next (h : Walked p) : Walked { p with rest := p.rest.tail, waiting := false } :=
  ⟨fun key hkey => h.rest key (mem_of_mem_tail hkey), h.called, by simp⟩

theorem Walked.asked (h : Walked p) (hkey : p.rest.head? = some key) :
    Walked { p with called := p.called ++ [key], waiting := true } := by
  refine ⟨h.rest, ?_, ?_⟩
  · intro k hk
    obtain hk | hk := mem_append.mp hk
    · exact h.called k hk
    · rw [mem_singleton.mp hk]
      exact h.rest key (mem_of_mem_head? hkey)
  · intro _ k hk
    rw [hkey, mem_some_iff] at hk
    simp [hk]

theorem Kept.set {i : Nat} (h : Kept w) (hp : Walked p) : Kept { w with passes := w.passes.set i p } := by
  refine ⟨h.ends, fun q hq => ?_⟩
  obtain hq | rfl := mem_or_eq_of_mem_set hq
  · exact h.passes q hq
  · exact hp

theorem Kept.advance {i : Nat} (h : Kept w) (hp : Walked p) : Kept (w.advance i p) := by
  unfold Serving.advance
  split
  · exact ⟨h.ends, (h.set hp.ended).passes⟩
  · exact h.set hp.next

theorem lawful_advance {i : Nat} (hp : Walked p) :
    Lawful (w.advance i p).log ↔ Lawful w.log ∧ (p.rest.tail = [] → p.called ≠ []) := by
  unfold Serving.advance
  split
  · rename_i hlast
    have hcalled : (∃ key ∈ p.chain, key ∈ p.called) ↔ p.called ≠ [] := by
      constructor
      · rintro ⟨key, _, hkey⟩
        exact ne_nil_of_mem hkey
      · intro hne
        obtain ⟨key, hkey⟩ := exists_mem_of_ne_nil _ hne
        exact ⟨key, hp.called key hkey, hkey⟩
    simp [Lawful, HealthEvent.Lawful, hcalled, hlast]
  · rename_i hlast
    simp [hlast]

/-! What is recorded. -/

theorem Kept.recordFailure (h : Kept w) (key : String) (failure : ModelFailure) (time : Rat) :
    Kept (w.recordFailure key failure time) := by
  unfold Serving.recordFailure
  split
  · exact ⟨h.ends, h.passes⟩
  · refine ⟨fun k => ?_, h.passes⟩
    simp only [ModelHealth.cool, cooldownEnd]
    rw [Dict.get?_set, h.ends k]

theorem lawful_recordFailure {failure : ModelFailure} {time : Rat} (h : Kept w) :
    Lawful (w.recordFailure key failure time).log ↔ Lawful w.log ∧ w.Outlasts key failure time := by
  unfold Serving.recordFailure
  split
  · rename_i hzero
    simp [Outlasts, hzero]
  · rename_i hzero
    simp [Outlasts, hzero, Lawful, HealthEvent.Lawful, h.ends]

theorem Kept.recordSuccess (h : Kept w) (key : String) : Kept (w.recordSuccess key) := by
  refine ⟨fun k => ?_, h.passes⟩
  simp only [Serving.recordSuccess, ModelHealth.recover, cooldownEnd]
  rw [Dict.get?_erase, h.ends k]

theorem registered_cooledUntil (chain : List String) : ∀ health : ModelHealth,
    (chain.foldl ModelHealth.register health).cooledUntil = health.cooledUntil := by
  induction chain with
  | nil => exact fun _ => rfl
  | cons key chain ih => exact fun health => ih (health.register key)

/-! One step. -/

theorem gate_law {i : Nat} {time last : Rat} {readings : String → Rat} (h : Kept w)
    (hturn : w.turn i false = some (p, key)) :
    Kept (w.gate i p key time readings last) ∧ (Lawful (w.gate i p key time readings last).log ↔
      Lawful w.log ∧ (w.health.shouldSkip key time readings = true →
        (w.health.cooledUntil.get? key).isSome ∧ (p.rest.tail = [] → p.called ≠ []))) := by
  obtain ⟨hmem, -, hhead⟩ := turn_eq hturn
  have hwalked := h.passes p hmem
  unfold Serving.gate
  split
  · rename_i hskip
    have hcooling : time < w.health.cooledUntil.getD key 0 := by
      simp only [ModelHealth.shouldSkip, ModelHealth.cooling, Bool.and_eq_true, decide_eq_true_eq] at hskip
      exact hskip.1
    have hskipped : (∃ last ∈ cooldownEnd w.log key, time < last) ↔ (w.health.cooledUntil.get? key).isSome := by
      rw [← h.ends key]
      rw [Dict.getD] at hcooling
      cases hget : w.health.cooledUntil.get? key with
      | none => simp
      | some last =>
        rw [hget] at hcooling
        simpa using hcooling
    refine ⟨Kept.advance ⟨h.ends, h.passes⟩ hwalked, ?_⟩
    rw [lawful_advance hwalked]
    simp only [Lawful, HealthEvent.Lawful, hskipped, and_assoc, hskip, true_imp_iff]
  · rename_i hskip
    have hset := h.set (i := i) (hwalked.asked hhead)
    exact ⟨⟨hset.ends, hset.passes⟩, by simp [hskip]⟩

theorem step_law {a : ServingStep} {w' : Serving} (h : Kept w) (ha : step w a = some w') :
    Kept w' ∧ (Lawful w'.log ↔ Lawful w.log ∧ Sound w a) := by
  cases a with
  | build chain =>
    simp only [step] at ha
    split at ha
    · cases ha
    · obtain rfl := Option.some.inj ha
      refine ⟨⟨fun key => ?_, h.passes⟩, by simp [Sound]⟩
      rw [registered_cooledUntil, h.ends]
  | request chain =>
    simp only [step] at ha
    split at ha
    · obtain rfl := Option.some.inj ha
      refine ⟨⟨h.ends, fun p hp => ?_⟩, by simp [Sound]⟩
      obtain hp | hp := mem_append.mp hp
      · exact h.passes p hp
      · rw [mem_singleton.mp hp]
        exact ⟨fun _ hkey => hkey, by simp, by simp⟩
    · cases ha
  | gate i time readings last =>
    simp only [step] at ha
    split at ha
    · obtain ⟨⟨p, key⟩, hturn, rfl⟩ := map_eq_some_iff.mp ha
      simpa [Sound, hturn] using gate_law h hturn
    · cases ha
  | answers i streams =>
    obtain ⟨⟨p, key⟩, hturn, rfl⟩ := map_eq_some_iff.mp ha
    have hset := h.set (i := i) (h.passes p (turn_eq hturn).1).ended
    cases streams with
    | true => exact ⟨⟨hset.ends, hset.passes⟩, by simp [Sound]⟩
    | false => exact ⟨hset.recordSuccess key, by simp [Sound, recordSuccess, Lawful, HealthEvent.Lawful]⟩
  | fails i failure time =>
    simp only [step] at ha
    split at ha
    · obtain ⟨⟨p, key⟩, hturn, rfl⟩ := map_eq_some_iff.mp ha
      obtain ⟨hmem, hwaiting, hhead⟩ := turn_eq hturn
      have hwalked := h.passes p hmem
      have hcalled := ne_nil_of_mem (hwalked.waiting hwaiting key hhead)
      refine ⟨(h.recordFailure key failure time).advance hwalked, ?_⟩
      rw [lawful_advance hwalked, lawful_recordFailure h]
      simp [Sound, hturn, hcalled]
    · cases ha
  | raises i =>
    obtain ⟨⟨p, key⟩, hturn, rfl⟩ := map_eq_some_iff.mp ha
    exact ⟨h.set (h.passes p (turn_eq hturn).1).ended, by simp [Sound]⟩
  | streamEnds j =>
    obtain ⟨key, hkey, rfl⟩ := map_eq_some_iff.mp ha
    have hk := h.recordSuccess key
    exact ⟨⟨hk.ends, hk.passes⟩, by simp [Sound, recordSuccess, Lawful, HealthEvent.Lawful]⟩
  | streamFails j failure time =>
    simp only [step] at ha
    split at ha
    · obtain ⟨key, hkey, rfl⟩ := map_eq_some_iff.mp ha
      have hk := h.recordFailure key failure time
      refine ⟨⟨hk.ends, hk.passes⟩, ?_⟩
      rw [show Lawful _ ↔ _ from lawful_recordFailure h]
      simp [Sound, hkey]
    · cases ha
  | streamStops j =>
    obtain ⟨key, hkey, rfl⟩ := map_eq_some_iff.mp ha
    exact ⟨⟨h.ends, h.passes⟩, by simp [Sound]⟩

/-- Every pass in which each model has failed has called a model of its chain, every model skipped is
within a cooldown recorded for it, and no cooldown has been shortened, exactly in the runs of sound steps. -/
theorem called_before_exhausted (now : Rat) (steps : List ServingStep) (w : Serving)
    (h : Machine.exec step { now } steps = some w) :
    Lawful w.log ↔ Machine.Along step Sound { now } steps := by
  have hkept : Kept { now } := ⟨fun _ => rfl, by simp⟩
  rw [Machine.law_iff_along (fun s a s' => step_law) hkept h]
  exact and_iff_right trivial

instance (w : Serving) (key : String) (failure : ModelFailure) (time : Rat) : Decidable (w.Outlasts key failure time) :=
  inferInstanceAs (Decidable (_ ∨ _))

instance (w : Serving) : (a : ServingStep) → Decidable (Sound w a)
  | .gate .. | .fails .. | .streamFails .. => inferInstanceAs (Decidable (∀ x ∈ _, _))
  | .build _ | .request _ | .answers .. | .raises _ | .streamEnds _ | .streamStops _ => isTrue trivial

/-- The first model fails, the second one answers, and the next pass goes straight to it. -/
def oneChain : List ServingStep :=
  [.build ["fast", "strong"], .request ["fast", "strong"], .gate 0 10 (fun _ => 10) 10, .fails 0 (.http 503) 11,
    .gate 0 11 (fun _ => 11) 11, .answers 0 false, .request ["fast", "strong"], .gate 1 20 (fun _ => 20) 20,
    .gate 1 20 (fun _ => 20) 20, .answers 1 true, .streamEnds 0]

theorem called_before_exhausted_oneChain :
    ∃ w, Machine.exec step { now := 0 } oneChain = some w ∧ Lawful w.log := by
  have hrun : (Machine.exec step { now := 0 } oneChain).isSome := by decide +kernel
  obtain ⟨w, hw⟩ := isSome_iff_exists.mp hrun
  exact ⟨w, hw, (called_before_exhausted 0 oneChain w hw).mpr (by decide +kernel)⟩

/-- The model of the second chain is skipped for a model of the first one. -/
def twoChains : List ServingStep :=
  [.build ["fast", "strong"], .build ["strong"], .request ["strong"], .gate 0 10 (fun _ => 10) 10,
    .fails 0 (.http 429) 11, .request ["strong"], .gate 1 12 (fun _ => 12) 12]

/-- A server error behind a refused key. -/
def twoFailures : List ServingStep :=
  [.build ["fast", "strong"], .request ["fast", "strong"], .request ["fast", "strong"],
    .gate 0 10 (fun _ => 10) 10, .gate 1 10 (fun _ => 10) 10, .fails 0 (.http 401) 11, .fails 1 (.http 500) 12]

theorem exhausted_without_call :
    (∃ w ∈ Machine.exec step { now := 0 } twoChains, w.log.head? = some (.exhausted ["strong"] []) ∧ ¬Lawful w.log) ∧
    ∃ w ∈ Machine.exec step { now := 0 } twoFailures, ¬Lawful w.log := by
  decide +kernel

end Serving
end SelericSwarm.Agent
