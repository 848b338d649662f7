import Mathlib.Algebra.Order.Field.Rat
import Mathlib.Tactic.Linarith
import SelericSwarm.Machine

/-! The health gate of a model, and the gateway calls that pass through it side by side. -/
open List Option

namespace SelericSwarm.Llm

structure CircuitBreaker where
  failureThreshold : Int := 5
  cooldown : Rat := 30
  consecutiveFailures : Nat := 0
  openedAt : Option Rat := none
  probing : Bool := false

namespace CircuitBreaker

/-- `allow`, at a moment of the clock. -/
def allow (b : CircuitBreaker) (now : Rat) : Bool × CircuitBreaker :=
  match b.openedAt with
  | none => (true, b)
  | some openedAt =>
    if now - openedAt < b.cooldown then (false, b)
    else if b.probing then (false, b)
    else (true, { b with probing := true })

def recordSuccess (b : CircuitBreaker) : CircuitBreaker :=
  { b with consecutiveFailures := 0, openedAt := none, probing := false }

def recordFailure (b : CircuitBreaker) (now : Rat) : CircuitBreaker :=
  { b with
    consecutiveFailures := b.consecutiveFailures + 1
    probing := false
    openedAt := if (b.consecutiveFailures + 1 : Nat) ≥ b.failureThreshold then some now else b.openedAt }

end CircuitBreaker

/-- How an awaited adapter call ends. -/
inductive Ending where
  | returned
  | llmError
  | exception
  | cancelled
  deriving DecidableEq

/-- What `_route` records: only an `Exception` is caught. -/
def Ending.success? : Ending → Option Bool
  | .returned => some true
  | .llmError | .exception => some false
  | .cancelled => none

structure Outcome where
  time : Rat
  success : Bool

/-- The calls of `_route` over one model: for each one admitted whether it is a half-open
probe, nothing once it has ended. `recorded` are the outcomes, the last one first. -/
structure Routing where
  breaker : CircuitBreaker
  now : Rat
  calls : List (Option Bool) := []
  recorded : List Outcome := []

inductive RouteAction where
  | route
  | ends (call : Nat) (ending : Ending)

structure RouteStep where
  time : Rat
  action : RouteAction

namespace Routing

/-- `_route` up to its adapter call. -/
def route (s : Routing) (time : Rat) : Routing :=
  if (s.breaker.allow time).1 then
    { s with
      breaker := (s.breaker.allow time).2
      now := time
      calls := s.calls ++ [some s.breaker.openedAt.isSome] }
  else { s with breaker := (s.breaker.allow time).2, now := time }

def ends (s : Routing) (time : Rat) (call : Nat) (ending : Ending) : Routing :=
  { breaker := match ending.success? with
      | some true => s.breaker.recordSuccess
      | some false => s.breaker.recordFailure time
      | none => s.breaker
    now := time
    calls := s.calls.set call none
    recorded := (ending.success?.map (Outcome.mk time)).toList ++ s.recorded }

def step (s : Routing) (a : RouteStep) : Option Routing :=
  if a.time < s.now then none
  else match a.action with
    | .route => some (s.route a.time)
    | .ends call ending => if s.calls[call]?.join.isSome then some (s.ends a.time call ending) else none

def admits (s : Routing) (a : RouteStep) : Prop := a.action = .route ∧ (s.breaker.allow a.time).1 = true

def probes (s : Routing) : Nat := s.calls.count (some true)

def outstanding (s : Routing) : Nat := s.calls.countP Option.isSome

end Routing

/-- The failures since the last success. -/
def streak (recorded : List Outcome) : Nat := (recorded.takeWhile fun o => !o.success).length

/-- A failure at that time has opened the breaker, and no success has been recorded since. -/
def Opened (threshold : Int) (recorded : List Outcome) (time : Rat) : Prop :=
  ∃ since earlier, recorded = since ++ ⟨time, false⟩ :: earlier ∧ (∀ o ∈ since, o.success = false) ∧
    threshold ≤ streak (⟨time, false⟩ :: earlier)

/-! The breaker remembers how the calls have ended. -/

theorem streak_cons_failure (time : Rat) (recorded : List Outcome) :
    streak (⟨time, false⟩ :: recorded) = streak recorded + 1 := by simp [streak]

theorem streak_cons_success (time : Rat) (recorded : List Outcome) :
    streak (⟨time, true⟩ :: recorded) = 0 := by simp [streak]

theorem not_opened_cons_success {threshold : Int} {time time' : Rat} {recorded : List Outcome} :
    ¬Opened threshold (⟨time, true⟩ :: recorded) time' := by
  rintro ⟨since, earlier, heq, hsince, -⟩
  cases since with
  | nil => simp at heq
  | cons o since =>
    obtain ⟨rfl, -⟩ := List.cons.inj heq
    exact absurd (hsince _ mem_cons_self) (by simp)

theorem opened_cons_failure {threshold : Int} {time time' : Rat} {recorded : List Outcome}
    (h : Opened threshold (⟨time, false⟩ :: recorded) time') :
    (time' = time ∧ threshold ≤ streak recorded + 1) ∨ Opened threshold recorded time' := by
  obtain ⟨since, earlier, heq, hsince, hstreak⟩ := h
  cases since with
  | nil =>
    obtain ⟨ho, rfl⟩ := List.cons.inj heq
    refine Or.inl ⟨(Outcome.mk.inj ho).1.symm, ?_⟩
    rw [streak_cons_failure] at hstreak
    exact_mod_cast hstreak
  | cons o since =>
    obtain ⟨-, rfl⟩ := List.cons.inj heq
    exact Or.inr ⟨since, earlier, rfl, fun o ho => hsince o (mem_cons_of_mem _ ho), hstreak⟩

namespace Routing

/-- What the breaker holds of the outcomes recorded so far. -/
structure Remembers (threshold : Int) (cooldown : Rat) (s : Routing) : Prop where
  threshold_eq : s.breaker.failureThreshold = threshold
  cooldown_eq : s.breaker.cooldown = cooldown
  failures : s.breaker.consecutiveFailures = streak s.recorded
  opened : ∀ time, Opened threshold s.recorded time → ∃ openedAt, s.breaker.openedAt = some openedAt ∧ time ≤ openedAt
  past : ∀ openedAt, s.breaker.openedAt = some openedAt → openedAt ≤ s.now

theorem allow_openedAt (b : CircuitBreaker) (now : Rat) :
    (b.allow now).2 = { b with probing := (b.allow now).2.probing } := by
  unfold CircuitBreaker.allow
  split
  · rfl
  · split
    · rfl
    · split <;> rfl

variable {threshold : Int} {cooldown time : Rat} {s : Routing}

section
variable (h : s.Remembers threshold cooldown)
include h

theorem Remembers.route (htime : s.now ≤ time) : (s.route time).Remembers threshold cooldown := by
  have hbreaker : (s.route time).breaker = { s.breaker with probing := (s.breaker.allow time).2.probing } := by
    rw [← allow_openedAt]
    unfold Routing.route
    split <;> rfl
  have hrecorded : (s.route time).recorded = s.recorded := by
    unfold Routing.route
    split <;> rfl
  have hnow : (s.route time).now = time := by
    unfold Routing.route
    split <;> rfl
  refine ⟨?_, ?_, ?_, ?_, ?_⟩
  · rw [hbreaker, h.threshold_eq]
  · rw [hbreaker, h.cooldown_eq]
  · rw [hbreaker, hrecorded, h.failures]
  · rw [hbreaker, hrecorded]
    exact h.opened
  · rw [hbreaker, hnow]
    exact fun openedAt ho => (h.past openedAt ho).trans htime

theorem Remembers.ends (htime : s.now ≤ time) (call : Nat) (ending : Ending) :
    (s.ends time call ending).Remembers threshold cooldown := by
  cases he : ending.success? with
  | none =>
    simp only [Routing.ends, he, map_none, toList_none, nil_append]
    exact ⟨h.threshold_eq, h.cooldown_eq, h.failures, h.opened, fun openedAt ho => (h.past openedAt ho).trans htime⟩
  | some success =>
    cases success with
    | true =>
      simp only [Routing.ends, he, map_some, toList_some, singleton_append]
      refine ⟨h.threshold_eq, h.cooldown_eq, (streak_cons_success _ _).symm, ?_, ?_⟩
      · exact fun t ht => absurd ht not_opened_cons_success
      · exact fun openedAt ho => by cases ho
    | false =>
      simp only [Routing.ends, he, map_some, toList_some, singleton_append]
      refine ⟨h.threshold_eq, h.cooldown_eq, ?_, ?_, ?_⟩
      · rw [streak_cons_failure, ← h.failures]
        rfl
      · intro t ht
        simp only [CircuitBreaker.recordFailure, h.threshold_eq, h.failures]
        obtain ⟨rfl, hstreak⟩ | ht := opened_cons_failure ht
        · exact ⟨t, if_pos (by exact_mod_cast hstreak), le_rfl⟩
        · obtain ⟨openedAt, ho, hle⟩ := h.opened t ht
          split
          · exact ⟨time, rfl, hle.trans ((h.past _ ho).trans htime)⟩
          · exact ⟨openedAt, ho, hle⟩
      · intro openedAt ho
        simp only [CircuitBreaker.recordFailure] at ho
        split at ho
        · exact (Option.some.inj ho).ge
        · exact (h.past _ ho).trans htime

theorem Remembers.step {s' : Routing} {a : RouteStep} (ha : s.step a = some s') :
    s'.Remembers threshold cooldown := by
  unfold Routing.step at ha
  split at ha
  · cases ha
  next htime =>
    split at ha
    · exact Option.some.inj ha ▸ h.route (not_lt.mp htime)
    next call ending _ =>
      split at ha
      · exact Option.some.inj ha ▸ h.ends (not_lt.mp htime) call ending
      · cases ha

theorem Remembers.cooled {a : RouteStep} (ha : s.admits a) (hopened : Opened threshold s.recorded time) :
    cooldown ≤ a.time - time := by
  obtain ⟨openedAt, ho, hle⟩ := h.opened time hopened
  have hallowed := ha.2
  simp only [CircuitBreaker.allow, ho, h.cooldown_eq] at hallowed
  split at hallowed
  · cases hallowed
  next hpast =>
    have := not_lt.mp hpast
    linarith

end

/-! The half-open probe. A probe is not cancelled, and no other call records its outcome
while one is outstanding. -/

def orderly (s : Routing) (a : RouteStep) : Bool :=
  match a.action with
  | .route => true
  | .ends call ending =>
    if ending = .cancelled then s.calls[call]? ≠ some (some true)
    else (s.calls.set call none).count (some true) = 0

/-- The breaker knows whether a probe is outstanding. -/
structure Probed (s : Routing) : Prop where
  probes_eq : s.probes = s.breaker.probing.toNat
  open_of_probing : s.breaker.probing = true → s.breaker.openedAt.isSome = true

theorem Probed.route (h : s.Probed) (time : Rat) : (s.route time).Probed := by
  unfold Routing.route
  obtain ⟨hprobes, hopen⟩ := h
  cases ho : s.breaker.openedAt with
  | none =>
    have hprobing : s.breaker.probing = false := by
      cases hp : s.breaker.probing
      · rfl
      · simp [ho] at hopen
        exact absurd hp (by simp [hopen])
    simp only [CircuitBreaker.allow, ho, if_true]
    exact ⟨by simpa [probes] using hprobes, by simp [hprobing]⟩
  | some openedAt =>
    by_cases hpast : time - openedAt < s.breaker.cooldown
    · simp only [CircuitBreaker.allow, ho, hpast, if_true]
      exact ⟨hprobes, by simp [ho]⟩
    · cases hp : s.breaker.probing with
      | true =>
        simp only [CircuitBreaker.allow, ho, hpast, hp, if_true, if_false]
        exact ⟨by simpa [probes, hp] using hprobes, by simp [ho]⟩
      | false =>
        simp only [CircuitBreaker.allow, ho, hpast, hp, if_false]
        refine ⟨?_, by simp⟩
        simp [probes, hp] at hprobes ⊢
        exact hprobes

theorem count_set_none {calls : List (Option Bool)} {call : Nat} (h : calls[call]? ≠ some (some true)) :
    (calls.set call none).count (some true) = calls.count (some true) := by
  by_cases hlt : call < calls.length
  · rw [count_set hlt]
    rw [List.getElem?_eq_getElem hlt] at h
    simp [show calls[call] ≠ some true from fun he => h (congrArg some he)]
  · rw [set_eq_of_length_le (by omega)]

theorem Probed.ends (h : s.Probed) {call : Nat} {ending : Ending} (hok : s.orderly ⟨time, .ends call ending⟩ = true) :
    (s.ends time call ending).Probed := by
  cases ending with
  | cancelled =>
    have hcall : s.calls[call]? ≠ some (some true) := by simpa [orderly] using hok
    exact ⟨(count_set_none hcall).trans h.probes_eq, h.open_of_probing⟩
  | returned =>
    have hnone : (s.calls.set call none).count (some true) = 0 := by simpa [orderly] using hok
    exact ⟨hnone, by simp [Routing.ends, Ending.success?, CircuitBreaker.recordSuccess]⟩
  | llmError =>
    have hnone : (s.calls.set call none).count (some true) = 0 := by simpa [orderly] using hok
    exact ⟨hnone, by simp [Routing.ends, Ending.success?, CircuitBreaker.recordFailure]⟩
  | exception =>
    have hnone : (s.calls.set call none).count (some true) = 0 := by simpa [orderly] using hok
    exact ⟨hnone, by simp [Routing.ends, Ending.success?, CircuitBreaker.recordFailure]⟩

theorem Probed.step {s' : Routing} {a : RouteStep} (h : s.Probed) (hok : s.orderly a = true)
    (ha : s.step a = some s') : s'.Probed := by
  obtain ⟨time, action⟩ := a
  unfold Routing.step at ha
  split at ha
  · cases ha
  · cases action with
    | route => exact Option.some.inj ha ▸ h.route time
    | ends call ending =>
      simp only at ha
      split at ha
      · exact Option.some.inj ha ▸ h.ends hok
      · cases ha

theorem Probed.probes_le_one (h : s.Probed) : s.probes ≤ 1 := by
  rw [h.probes_eq]
  exact Bool.toNat_le _

theorem Probed.recovers (h : s.Probed) (hs : s.Remembers threshold cooldown) (hout : s.outstanding = 0)
    (htime : s.now + cooldown ≤ time) : (s.breaker.allow time).1 = true := by
  have hprobes : s.probes = 0 := by
    refine count_eq_zero.mpr fun hmem => ?_
    simpa using countP_eq_zero.mp hout _ hmem
  have hprobing : s.breaker.probing = false := by
    rw [h.probes_eq] at hprobes
    simpa using hprobes
  cases ho : s.breaker.openedAt with
  | none => simp [CircuitBreaker.allow, ho]
  | some openedAt =>
    have hpast := hs.past openedAt ho
    have hcooled : ¬time - openedAt < s.breaker.cooldown := by
      rw [hs.cooldown_eq]
      linarith
    simp [CircuitBreaker.allow, ho, hcooled, hprobing]

theorem breaker_protects_and_recovers (threshold : Int) (cooldown start : Rat) (steps : List RouteStep)
    (h : Machine.Along step (fun s a => s.orderly a = true)
      { breaker := { failureThreshold := threshold, cooldown }, now := start } steps) :
    ∀ before after s, steps = before ++ after →
      Machine.exec step { breaker := { failureThreshold := threshold, cooldown }, now := start } before = some s →
      (∀ a, after.head? = some a → s.admits a →
        ∀ time, Opened threshold s.recorded time → cooldown ≤ a.time - time) ∧
      (s.breaker.openedAt.isSome = true → s.probes ≤ 1) ∧
      (s.outstanding = 0 → ∀ time, s.now + cooldown ≤ time → (s.breaker.allow time).1 = true) := by
  rintro before after s rfl he
  have hstart : Remembers threshold cooldown
      { breaker := { failureThreshold := threshold, cooldown }, now := start } :=
    ⟨rfl, rfl, rfl, fun time ⟨since, earlier, heq, _, _⟩ => by simp at heq, fun openedAt ho => by cases ho⟩
  have hs : s.Remembers threshold cooldown :=
    Machine.invariant (I := Remembers threshold cooldown) (fun _ _ _ h ha => h.step ha) hstart he
  have hprobed : s.Probed := Machine.invariant_along (I := Probed) (fun _ _ _ h hok ha => h.step hok ha)
    ⟨rfl, by simp⟩ (Machine.along_append.mp h).1 he
  exact ⟨fun a _ ha time hopened => hs.cooled ha hopened, fun _ => hprobed.probes_le_one,
    fun hout time htime => hprobed.recovers hs hout htime⟩

/-! A model that fails, is probed and serves again; and a probe that is cancelled. -/

def failing (threshold : Nat) : List RouteStep :=
  List.replicate threshold ⟨0, .route⟩ ++ (List.range threshold).map fun call => ⟨1, .ends call .llmError⟩

def healed : List RouteStep := failing 5 ++ [⟨31, .route⟩, ⟨32, .ends 5 .returned⟩]

theorem healed_recovers :
    ∃ s, Machine.exec step { breaker := {}, now := 0 } healed = some s ∧ s.outstanding = 0 ∧
      (s.breaker.allow 62).1 = true := by
  have hrun : ((Machine.exec step { breaker := {}, now := 0 } healed).any fun s =>
      decide (s.outstanding = 0 ∧ s.now = 32)) = true := by decide +kernel
  obtain ⟨s, he, hs⟩ := (Option.any_eq_true _ _).mp hrun
  obtain ⟨hout, hnow⟩ := of_decide_eq_true hs
  obtain ⟨-, -, hrecovers⟩ :=
    breaker_protects_and_recovers 5 30 0 healed (by decide +kernel) healed [] s (by simp) he
  exact ⟨s, he, hout, hrecovers hout 62 (by rw [hnow]; norm_num)⟩

def probeCancelled : List RouteStep := failing 5 ++ [⟨31, .route⟩, ⟨32, .ends 5 .cancelled⟩]

theorem probeCancelled_never_recovers :
    ¬∀ before after s, probeCancelled = before ++ after →
      Machine.exec step { breaker := {}, now := 0 } before = some s → s.outstanding = 0 →
        ∀ time, s.now + 30 ≤ time → (s.breaker.allow time).1 = true := by
  intro h
  have hrun : ((Machine.exec step { breaker := {}, now := 0 } probeCancelled).any fun s =>
      decide (s.outstanding = 0 ∧ s.now = 32) && !(s.breaker.allow 62).1) = true := by decide +kernel
  obtain ⟨s, he, hs⟩ := (Option.any_eq_true _ _).mp hrun
  obtain ⟨hstate, hrefused⟩ := Bool.and_eq_true_iff.mp hs
  obtain ⟨hout, hnow⟩ := of_decide_eq_true hstate
  rw [h probeCancelled [] s (by simp) he hout 62 (by rw [hnow]; norm_num)] at hrefused
  cases hrefused

end Routing

end SelericSwarm.Llm
