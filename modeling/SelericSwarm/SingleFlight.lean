import SelericSwarm.Machine
import SelericSwarm.Table

/-! `MissionQueryCache`: callers of one key share a fetch. A step is one stretch of a task between its awaits. -/
open List Option

namespace SelericSwarm.SingleFlight
open Keyed
universe u v

/-- How a fetch or a caller ends; `raised` is any exception but the cancellation of a task, and a value may be `None`. -/
inductive Settled (ν : Type v) where
  | value (v : Option ν)
  | raised
  | cancelled
  deriving DecidableEq

/-- Where a caller stands; a flight is a future that is shared. -/
inductive Stage (ν : Type v) where
  | fetching (flight : Nat)
  | waiting (flight : Nat)
  | ended (result : Settled ν)
  deriving DecidableEq

/-- A task in `get_or_fetch`; `cancelled` tells that its cancellation has been asked for. -/
structure Caller (κ : Type u) (ν : Type v) where
  key : κ
  cancelled : Bool := false
  stage : Stage ν
  deriving DecidableEq

structure Flight (κ : Type u) (ν : Type v) where
  key : κ
  leader : Nat
  result : Option (Settled ν) := none
  deriving DecidableEq

structure MissionQueryCache (κ : Type u) (ν : Type v) where
  store : Dict κ (Option ν) := .empty
  inflight : Dict κ Nat := .empty
  hits : Nat := 0
  misses : Nat := 0
  flights : List (Flight κ ν) := []
  callers : List (Caller κ ν) := []

inductive CacheStep (κ : Type u) (ν : Type v) where
  | call (key : κ)
  | cancel (caller : Nat)
  | finish (caller : Nat) (result : Settled ν)
  | resume (caller : Nat)

namespace MissionQueryCache
variable {κ : Type u} {ν : Type v} [DecidableEq κ]

/-- A stored `None` counts as a miss. -/
def cached (s : MissionQueryCache κ ν) (key : κ) : Option ν := (s.store.get? key).join

/-- `get_or_fetch` up to its first await. -/
def call (s : MissionQueryCache κ ν) (key : κ) : MissionQueryCache κ ν :=
  match s.cached key with
  | some v =>
    { s with hits := s.hits + 1, callers := s.callers ++ [{ key := key, stage := .ended (.value (some v)) }] }
  | none =>
    match s.inflight.get? key with
    | some flight => { s with hits := s.hits + 1, callers := s.callers ++ [{ key := key, stage := .waiting flight }] }
    | none =>
      { s with
        misses := s.misses + 1
        inflight := s.inflight.set key s.flights.length
        flights := s.flights ++ [{ key := key, leader := s.callers.length }]
        callers := s.callers ++ [{ key := key, stage := .fetching s.flights.length }] }

/-- What the leader does when its fetch has ended. -/
def finish (s : MissionQueryCache κ ν) (index : Nat) (c : Caller κ ν) (flight : Nat) (result : Settled ν) :
    MissionQueryCache κ ν where
  store :=
    match result with
    | .value v => s.store.set c.key v
    | _ => s.store
  inflight := s.inflight.erase c.key
  hits := s.hits
  misses := s.misses
  flights := s.flights.set flight { key := c.key, leader := index, result := some result }
  callers := s.callers.set index { c with stage := .ended result }

/-- A fetch ends in a cancellation only when that of its caller has been asked for; whoever waits goes on when the
flight has a result, or when it is cancelled itself. -/
def step (s : MissionQueryCache κ ν) : CacheStep κ ν → Option (MissionQueryCache κ ν)
  | .call key => some (s.call key)
  | .cancel index => s.callers[index]?.bind fun c =>
    match c.stage with
    | .ended _ => none
    | _ => some { s with callers := s.callers.set index { c with cancelled := true } }
  | .finish index result => s.callers[index]?.bind fun c =>
    match c.stage, result with
    | .fetching flight, .cancelled => if c.cancelled then some (s.finish index c flight .cancelled) else none
    | .fetching flight, result => some (s.finish index c flight result)
    | _, _ => none
  | .resume index => s.callers[index]?.bind fun c =>
    match c.stage with
    | .waiting flight =>
      if c.cancelled then some { s with callers := s.callers.set index { c with stage := .ended .cancelled } }
      else (s.flights[flight]?.bind Flight.result).map fun result =>
        { s with callers := s.callers.set index { c with stage := .ended result } }
    | _ => none

/-! What a step can do. -/

inductive Moves (s : MissionQueryCache κ ν) : CacheStep κ ν → MissionQueryCache κ ν → Prop
  | hit {key : κ} {v : ν} (stored : s.store.get? key = some (some v)) : Moves s (.call key)
      { s with hits := s.hits + 1, callers := s.callers ++ [{ key := key, stage := .ended (.value (some v)) }] }
  | joins {key : κ} {flight : Nat} (missing : s.cached key = none) (inflight : s.inflight.get? key = some flight) :
      Moves s (.call key)
        { s with hits := s.hits + 1, callers := s.callers ++ [{ key := key, stage := .waiting flight }] }
  | leads {key : κ} (missing : s.cached key = none) (free : s.inflight.get? key = none) : Moves s (.call key)
      { s with
        misses := s.misses + 1
        inflight := s.inflight.set key s.flights.length
        flights := s.flights ++ [{ key := key, leader := s.callers.length }]
        callers := s.callers ++ [{ key := key, stage := .fetching s.flights.length }] }
  | cancels {index : Nat} {c : Caller κ ν} (at' : s.callers[index]? = some c) (running : ∀ result, c.stage ≠ .ended result) :
      Moves s (.cancel index) { s with callers := s.callers.set index { c with cancelled := true } }
  | finishes {index flight : Nat} {c : Caller κ ν} {result : Settled ν} (at' : s.callers[index]? = some c)
      (stage : c.stage = .fetching flight) (asked : result = .cancelled → c.cancelled = true) :
      Moves s (.finish index result) (s.finish index c flight result)
  | gives {index flight : Nat} {c : Caller κ ν} {result : Settled ν} (at' : s.callers[index]? = some c)
      (stage : c.stage = .waiting flight)
      (result' : c.cancelled = true ∧ result = .cancelled ∨ c.cancelled = false ∧
        ∃ f, s.flights[flight]? = some f ∧ f.result = some result) :
      Moves s (.resume index) { s with callers := s.callers.set index { c with stage := .ended result } }

theorem moves_of_step {s s' : MissionQueryCache κ ν} {a : CacheStep κ ν} (h : s.step a = some s') : s.Moves a s' := by
  cases a with
  | call key =>
    obtain rfl := Option.some.inj h
    unfold call
    cases hcached : s.cached key with
    | some v => exact .hit (join_eq_some_iff.mp hcached)
    | none =>
      cases hinflight : s.inflight.get? key with
      | some flight => exact .joins hcached hinflight
      | none => exact .leads hcached hinflight
  | cancel index =>
    obtain ⟨c, hc, h⟩ := bind_eq_some_iff.mp h
    split at h
    · cases h
    · next hrunning =>
      obtain rfl := Option.some.inj h
      exact .cancels hc fun result hstage => hrunning result hstage
  | finish index result =>
    obtain ⟨c, hc, h⟩ := bind_eq_some_iff.mp h
    cases hstage : c.stage with
    | waiting flight => cases hstage ▸ h
    | ended result' => cases hstage ▸ h
    | fetching flight =>
      rw [hstage] at h
      cases result with
      | value v =>
        obtain rfl := Option.some.inj h
        exact .finishes hc hstage fun hcancelled => nomatch hcancelled
      | raised =>
        obtain rfl := Option.some.inj h
        exact .finishes hc hstage fun hcancelled => nomatch hcancelled
      | cancelled =>
        dsimp only at h
        split at h
        · next hasked =>
          obtain rfl := Option.some.inj h
          exact .finishes hc hstage fun _ => hasked
        · cases h
  | resume index =>
    obtain ⟨c, hc, h⟩ := bind_eq_some_iff.mp h
    split at h
    · next flight hstage =>
      split at h
      · next hcancelled =>
        obtain rfl := Option.some.inj h
        exact .gives hc hstage (.inl ⟨hcancelled, rfl⟩)
      · next hcancelled =>
        obtain ⟨result, hresult, rfl⟩ := map_eq_some_iff.mp h
        obtain ⟨f, hf, hresult⟩ := bind_eq_some_iff.mp hresult
        exact .gives hc hstage (.inr ⟨Bool.eq_false_of_not_eq_true hcancelled, f, hf, hresult⟩)
    · cases h

/-! Lists that grow at the end or change at one place. -/

section Places
variable {α : Type u} {l : List α} {a b : α} {i j : Nat}

theorem of_getElem?_set (h : (l.set i a)[j]? = some b) : j = i ∧ b = a ∨ j ≠ i ∧ l[j]? = some b := by
  rw [List.getElem?_set] at h
  split at h
  · next heq =>
    split at h
    · exact .inl ⟨heq.symm, (Option.some.inj h).symm⟩
    · cases h
  · next hne => exact .inr ⟨fun heq => hne heq.symm, h⟩

theorem of_getElem?_concat (h : (l ++ [a])[j]? = some b) : l[j]? = some b ∨ j = l.length ∧ b = a := by
  obtain hlt | hle := Nat.lt_or_ge j l.length
  · rw [List.getElem?_append_left hlt] at h
    exact .inl h
  · rw [List.getElem?_append_right hle] at h
    obtain ⟨hzero, heq⟩ := List.getElem?_eq_some_iff.mp h
    rw [length_singleton] at hzero
    have hj : j = l.length := by omega
    subst hj
    simp only [Nat.sub_self, getElem_cons_zero] at heq
    exact .inr ⟨rfl, heq.symm⟩

theorem getElem?_concat_of (h : l[j]? = some b) : (l ++ [a])[j]? = some b := by
  rw [List.getElem?_append_left (List.getElem?_eq_some_iff.mp h).1]
  exact h

theorem getElem?_set_of_ne (hne : j ≠ i) (h : l[j]? = some b) : (l.set i a)[j]? = some b := by
  rw [List.getElem?_set_ne hne.symm]
  exact h

theorem getElem?_set_at (h : l[i]? = some b) : (l.set i a)[i]? = some a :=
  List.getElem?_set_self (List.getElem?_eq_some_iff.mp h).1

end Places

/-- Every fetch has its entry and every entry its fetch, and the values that last are those that are stored. -/
structure Coherent (lasts : Option ν → Prop) (s : MissionQueryCache κ ν) : Prop where
  led : ∀ i c f, s.callers[i]? = some c → c.stage = .fetching f →
    s.flights[f]? = some { key := c.key, leader := i } ∧ s.inflight.get? c.key = some f
  live : ∀ k f, s.inflight.get? k = some f → ∃ (i : Nat) (c : Caller κ ν), s.callers[i]? = some c ∧ c.key = k ∧
    c.stage = .fetching f
  joined : ∀ c ∈ s.callers, ∀ f, c.stage = .waiting f →
    ∃ fl : Flight κ ν, s.flights[f]? = some fl ∧ fl.key = c.key
  stored : ∀ k v, s.store.get? k = some v → lasts v → s.inflight.get? k = none
  settled : ∀ fl ∈ s.flights, ∀ v, fl.result = some (.value v) → lasts v → s.store.get? fl.key = some v
  returned : ∀ c ∈ s.callers, ∀ v, c.stage = .ended (.value v) → lasts v → s.store.get? c.key = some v

/-- No stored value that lasts is fetched again. -/
def Keeps (lasts : Option ν → Prop) (s : MissionQueryCache κ ν) : CacheStep κ ν → Prop
  | .call key => s.store.get? key = some none → ¬lasts none
  | _ => True

section Steps
variable {lasts : Option ν → Prop} {s s' : MissionQueryCache κ ν}

theorem Coherent.start : Coherent lasts ({} : MissionQueryCache κ ν) where
  led _ _ _ h := by cases h
  live _ _ h := by cases h
  joined _ h := by cases h
  stored _ _ h := by cases h
  settled _ h := by cases h
  returned _ h := by cases h

variable {c : Caller κ ν} {index : Nat} {a : CacheStep κ ν}

theorem Coherent.arrive (h : s.Coherent lasts) {hits : Nat} (hfetch : ∀ f, c.stage ≠ .fetching f)
    (hwait : ∀ f, c.stage = .waiting f → ∃ fl : Flight κ ν, s.flights[f]? = some fl ∧ fl.key = c.key)
    (hreturned : ∀ v, c.stage = .ended (.value v) → lasts v → s.store.get? c.key = some v) :
    Coherent lasts { s with hits := hits, callers := s.callers ++ [c] } where
  led i c' f hc' hstage := by
    obtain hc' | ⟨-, rfl⟩ := of_getElem?_concat hc'
    · exact h.led i c' f hc' hstage
    · exact absurd hstage (hfetch f)
  live k f hk := by
    obtain ⟨i, c', hc', hrest⟩ := h.live k f hk
    exact ⟨i, c', getElem?_concat_of hc', hrest⟩
  joined c' hc' f hstage := by
    obtain hc' | hc' := mem_append.mp hc'
    · exact h.joined c' hc' f hstage
    · obtain rfl := mem_singleton.mp hc'
      exact hwait f hstage
  stored := h.stored
  settled := h.settled
  returned c' hc' v hstage hlasts := by
    obtain hc' | hc' := mem_append.mp hc'
    · exact h.returned c' hc' v hstage hlasts
    · obtain rfl := mem_singleton.mp hc'
      exact hreturned v hstage hlasts

theorem Coherent.proceed (h : s.Coherent lasts) {c' : Caller κ ν} (hc : s.callers[index]? = some c)
    (hfetch : ∀ f, c.stage = .fetching f ↔ c'.stage = .fetching f) (hkey : c'.key = c.key)
    (hwait : ∀ f, c'.stage = .waiting f → c.stage = .waiting f)
    (hreturned : ∀ v, c'.stage = .ended (.value v) → lasts v → s.store.get? c.key = some v) :
    Coherent lasts { s with callers := s.callers.set index c' } where
  led i d f hd hstage := by
    obtain ⟨rfl, rfl⟩ | ⟨-, hd⟩ := of_getElem?_set hd
    · rw [hkey]
      exact h.led i c f hc ((hfetch f).mpr hstage)
    · exact h.led i d f hd hstage
  live k f hk := by
    obtain ⟨i, d, hd, hdkey, hstage⟩ := h.live k f hk
    by_cases hi : i = index
    · subst hi
      obtain rfl := Option.some.inj (hd.symm.trans hc)
      exact ⟨i, c', getElem?_set_at hc, hkey.trans hdkey, (hfetch f).mp hstage⟩
    · exact ⟨i, d, getElem?_set_of_ne hi hd, hdkey, hstage⟩
  joined d hd f hstage := by
    obtain hd | rfl := mem_or_eq_of_mem_set hd
    · exact h.joined d hd f hstage
    · rw [hkey]
      exact h.joined c (mem_of_getElem? hc) f (hwait f hstage)
  stored := h.stored
  settled := h.settled
  returned d hd v hstage hlasts := by
    obtain hd | rfl := mem_or_eq_of_mem_set hd
    · exact h.returned d hd v hstage hlasts
    · rw [hkey]
      exact hreturned v hstage hlasts

theorem Coherent.lead (h : s.Coherent lasts) {key : κ} (hmissing : s.cached key = none)
    (hfree : s.inflight.get? key = none) (hkeeps : s.Keeps lasts (.call key)) : Coherent lasts
      { s with
        misses := s.misses + 1
        inflight := s.inflight.set key s.flights.length
        flights := s.flights ++ [{ key := key, leader := s.callers.length }]
        callers := s.callers ++ [{ key := key, stage := .fetching s.flights.length }] } where
  led i c f hc hstage := by
    dsimp only at hc ⊢
    obtain hc | ⟨rfl, rfl⟩ := of_getElem?_concat hc
    · obtain ⟨hflight, hinflight⟩ := h.led i c f hc hstage
      refine ⟨getElem?_concat_of hflight, ?_⟩
      rw [Dict.get?_set_of_ne]
      · exact hinflight
      · rintro rfl
        rw [hfree] at hinflight
        cases hinflight
    · obtain rfl := Stage.fetching.inj hstage
      exact ⟨List.getElem?_concat_length, Dict.get?_set_self _ _ _⟩
  live k f hk := by
    dsimp only at hk ⊢
    rw [Dict.get?_set] at hk
    split at hk
    · next hkey =>
      obtain rfl := Option.some.inj hk
      exact ⟨s.callers.length, _, List.getElem?_concat_length, hkey, rfl⟩
    · obtain ⟨i, c, hc, hrest⟩ := h.live k f hk
      exact ⟨i, c, getElem?_concat_of hc, hrest⟩
  joined c hc f hstage := by
    obtain hc | hc := mem_append.mp hc
    · obtain ⟨fl, hfl, hkey⟩ := h.joined c hc f hstage
      exact ⟨fl, getElem?_concat_of hfl, hkey⟩
    · obtain rfl := mem_singleton.mp hc
      cases hstage
  stored k v hstore hlasts := by
    dsimp only at hstore ⊢
    rw [Dict.get?_set_of_ne]
    · exact h.stored k v hstore hlasts
    · rintro rfl
      rw [cached, hstore] at hmissing
      obtain rfl : v = none := hmissing
      exact hkeeps hstore hlasts
  settled fl hfl v hresult hlasts := by
    obtain hfl | hfl := mem_append.mp hfl
    · exact h.settled fl hfl v hresult hlasts
    · obtain rfl := mem_singleton.mp hfl
      cases hresult
  returned c hc v hstage hlasts := by
    obtain hc | hc := mem_append.mp hc
    · exact h.returned c hc v hstage hlasts
    · obtain rfl := mem_singleton.mp hc
      cases hstage

theorem Coherent.unstored (h : s.Coherent lasts) {flight : Nat} (hc : s.callers[index]? = some c)
    (hstage : c.stage = .fetching flight) {v : Option ν} (hlasts : lasts v) : s.store.get? c.key ≠ some v := by
  intro hstore
  have hfree := h.stored c.key v hstore hlasts
  rw [(h.led index c flight hc hstage).2] at hfree
  cases hfree

theorem finish_store (s : MissionQueryCache κ ν) (index : Nat) (c : Caller κ ν) (flight : Nat) (result : Settled ν)
    (k : κ) : (s.finish index c flight result).store.get? k =
      match result with
      | .value v => if c.key = k then some v else s.store.get? k
      | _ => s.store.get? k := by
  unfold finish
  cases result with
  | value v => exact Dict.get?_set _ _ _ _
  | raised => rfl
  | cancelled => rfl

theorem Coherent.lasting (h : s.Coherent lasts) {flight : Nat} (hc : s.callers[index]? = some c)
    (hstage : c.stage = .fetching flight) (result : Settled ν) {k : κ} {v : Option ν} (hlasts : lasts v)
    (hstore : s.store.get? k = some v) : (s.finish index c flight result).store.get? k = some v := by
  rw [finish_store]
  cases result with
  | value w =>
    have hne : c.key ≠ k := fun hkey => h.unstored hc hstage hlasts (hkey ▸ hstore)
    dsimp only
    rw [if_neg hne]
    exact hstore
  | raised => exact hstore
  | cancelled => exact hstore

theorem Coherent.finish (h : s.Coherent lasts) {flight : Nat} (hc : s.callers[index]? = some c)
    (hstage : c.stage = .fetching flight) (result : Settled ν) : Coherent lasts (s.finish index c flight result) where
  led i d f hd hdstage := by
    obtain ⟨hflight, hinflight⟩ := h.led index c flight hc hstage
    obtain ⟨rfl, rfl⟩ | ⟨hi, hd⟩ := of_getElem?_set hd
    · cases hdstage
    · obtain ⟨hdflight, hdinflight⟩ := h.led i d f hd hdstage
      have hf : f ≠ flight := by
        rintro rfl
        rw [hflight] at hdflight
        exact hi (congrArg Flight.leader (Option.some.inj hdflight)).symm
      refine ⟨getElem?_set_of_ne hf hdflight, ?_⟩
      have hkey : c.key ≠ d.key := by
        intro hkey
        rw [hkey, hdinflight] at hinflight
        exact hf (Option.some.inj hinflight)
      exact (Dict.get?_erase s.inflight c.key d.key).trans ((if_neg hkey).trans hdinflight)
  live k f hk := by
    have hk' : (if c.key = k then none else s.inflight.get? k) = some f :=
      (Dict.get?_erase s.inflight c.key k).symm.trans hk
    split at hk'
    · cases hk'
    · next hkey =>
      obtain ⟨i, d, hd, hdkey, hdstage⟩ := h.live k f hk'
      have hi : i ≠ index := by
        rintro rfl
        obtain rfl := Option.some.inj (hd.symm.trans hc)
        exact hkey hdkey
      exact ⟨i, d, getElem?_set_of_ne hi hd, hdkey, hdstage⟩
  joined d hd f hdstage := by
    obtain hd | rfl := mem_or_eq_of_mem_set hd
    · obtain ⟨fl, hfl, hkey⟩ := h.joined d hd f hdstage
      by_cases hf : f = flight
      · subst hf
        obtain ⟨hflight, -⟩ := h.led index c f hc hstage
        obtain rfl := Option.some.inj (hfl.symm.trans hflight)
        exact ⟨_, getElem?_set_at hfl, hkey⟩
      · exact ⟨fl, getElem?_set_of_ne hf hfl, hkey⟩
    · cases hdstage
  stored k v hstore hlasts := by
    refine (Dict.get?_erase s.inflight c.key k).trans ?_
    split
    · rfl
    · next hkey =>
      rw [finish_store] at hstore
      refine h.stored k v ?_ hlasts
      cases result with
      | value w =>
        dsimp only at hstore
        rwa [if_neg hkey] at hstore
      | raised => exact hstore
      | cancelled => exact hstore
  settled fl hfl v hresult hlasts := by
    obtain hfl | rfl := mem_or_eq_of_mem_set hfl
    · exact h.lasting hc hstage result hlasts (h.settled fl hfl v hresult hlasts)
    · obtain rfl := Option.some.inj hresult
      rw [finish_store]
      exact if_pos rfl
  returned d hd v hdstage hlasts := by
    obtain hd | rfl := mem_or_eq_of_mem_set hd
    · exact h.lasting hc hstage result hlasts (h.returned d hd v hdstage hlasts)
    · obtain rfl := Stage.ended.inj hdstage
      rw [finish_store]
      exact if_pos rfl

theorem Coherent.step (h : s.Coherent lasts) (hkeeps : s.Keeps lasts a) (ha : s.step a = some s') :
    s'.Coherent lasts := by
  cases moves_of_step ha with
  | hit hstored =>
    refine h.arrive (fun f hstage => nomatch hstage) (fun f hstage => nomatch hstage) fun v hstage _ => ?_
    obtain rfl := Settled.value.inj (Stage.ended.inj hstage)
    exact hstored
  | @joins key flight hmissing hinflight =>
    refine h.arrive (fun f hstage => nomatch hstage) (fun f hstage => ?_) fun v hstage => nomatch hstage
    obtain rfl := Stage.waiting.inj hstage
    obtain ⟨i, c, hc, hkey, hfetching⟩ := h.live key flight hinflight
    exact ⟨_, (h.led i c flight hc hfetching).1, hkey⟩
  | leads hmissing hfree => exact h.lead hmissing hfree hkeeps
  | @cancels index c hc hrunning =>
    exact h.proceed hc (fun f => Iff.rfl) rfl (fun f hstage => hstage) fun v hstage => absurd hstage (hrunning _)
  | finishes hc hstage _ => exact h.finish hc hstage _
  | @gives index flight c result hc hstage hresult =>
    refine h.proceed hc (fun f => ⟨fun hf => ?_, fun hf => nomatch hf⟩) rfl (fun f hf => nomatch hf) fun v hv hlasts => ?_
    · rw [hstage] at hf
      cases hf
    · obtain rfl := Stage.ended.inj hv
      obtain ⟨-, hcancelled⟩ | ⟨-, fl, hfl, hresult⟩ := hresult
      · cases hcancelled
      · obtain ⟨fl', hfl', hkey⟩ := h.joined c (mem_of_getElem? hc) flight hstage
        obtain rfl := Option.some.inj (hfl.symm.trans hfl')
        rw [← hkey]
        exact h.settled fl (mem_of_getElem? hfl) v hresult hlasts

/-- The flights of a key are counted when they are started. -/
def started (s : MissionQueryCache κ ν) (key : κ) : Nat := s.flights.countP fun fl => decide (fl.key = key)

/-- While a value other than `None` is stored, no fetch is started, and the value stays. -/
theorem Coherent.rests (h : s.Coherent (· ≠ none)) (ha : s.step a = some s') {key : κ} {v : ν}
    (hstored : s.store.get? key = some (some v)) :
    s'.started key = s.started key ∧ s'.store.get? key = some (some v) := by
  cases moves_of_step ha with
  | hit => exact ⟨rfl, hstored⟩
  | joins => exact ⟨rfl, hstored⟩
  | @leads key' hmissing hfree =>
    refine ⟨?_, hstored⟩
    have hne : key' ≠ key := by
      rintro rfl
      rw [cached, hstored] at hmissing
      cases hmissing
    simp [started, countP_append, hne]
  | cancels => exact ⟨rfl, hstored⟩
  | @finishes index flight c result hc hstage _ =>
    refine ⟨?_, h.lasting hc hstage result (some_ne_none v) hstored⟩
    have hne : c.key ≠ key := fun hkey => h.unstored hc hstage (some_ne_none v) (hkey ▸ hstored)
    obtain ⟨hflight, -⟩ := h.led index c flight hc hstage
    obtain ⟨hlt, hget⟩ := List.getElem?_eq_some_iff.mp hflight
    simp [started, MissionQueryCache.finish, countP_set, hlt, hget, hne]
  | gives => exact ⟨rfl, hstored⟩

/-- Only callers whose own cancellation was asked for are cancelled, and so it will stay. -/
structure Spared (s : MissionQueryCache κ ν) : Prop where
  flights : ∀ f fl, s.flights[f]? = some fl → fl.result = some .cancelled → ∀ c ∈ s.callers, c.stage = .waiting f →
    c.cancelled = true
  callers : ∀ c ∈ s.callers, c.stage = .ended .cancelled → c.cancelled = true

/-- The second caller waits for the first one's fetch. -/
def Follows (c c' : Caller κ ν) : Bool :=
  match c.stage, c'.stage with
  | .fetching flight, .waiting flight' => flight = flight'
  | _, _ => false

def Spares (s : MissionQueryCache κ ν) : CacheStep κ ν → Prop
  | .finish index .cancelled => ∀ c ∈ s.callers[index]?, ∀ c' ∈ s.callers, Follows c c' = true → c'.cancelled = true
  | _ => True

omit [DecidableEq κ] in
theorem Spared.start : Spared ({} : MissionQueryCache κ ν) where
  flights _ _ h := by cases h
  callers _ h := by cases h

omit [DecidableEq κ] in
theorem Spared.arrive (h : s.Spared) {hits : Nat}
    (hwait : ∀ f fl, s.flights[f]? = some fl → fl.result = some .cancelled → c.stage ≠ .waiting f)
    (hended : c.stage ≠ .ended .cancelled) : Spared { s with hits := hits, callers := s.callers ++ [c] } where
  flights f fl hfl hresult d hd hstage := by
    obtain hd | hd := mem_append.mp hd
    · exact h.flights f fl hfl hresult d hd hstage
    · obtain rfl := mem_singleton.mp hd
      exact absurd hstage (hwait f fl hfl hresult)
  callers d hd hstage := by
    obtain hd | hd := mem_append.mp hd
    · exact h.callers d hd hstage
    · obtain rfl := mem_singleton.mp hd
      exact absurd hstage hended

omit [DecidableEq κ] in
theorem Spared.proceed (h : s.Spared)
    (hwait : ∀ f fl, s.flights[f]? = some fl → fl.result = some .cancelled → c.stage = .waiting f → c.cancelled = true)
    (hended : c.stage = .ended .cancelled → c.cancelled = true) :
    Spared { s with callers := s.callers.set index c } where
  flights f fl hfl hresult d hd hstage := by
    obtain hd | rfl := mem_or_eq_of_mem_set hd
    · exact h.flights f fl hfl hresult d hd hstage
    · exact hwait f fl hfl hresult hstage
  callers d hd hstage := by
    obtain hd | rfl := mem_or_eq_of_mem_set hd
    · exact h.callers d hd hstage
    · exact hended hstage

theorem Spared.step (h : s.Spared) (hcoherent : s.Coherent lasts) (hspares : s.Spares a) (ha : s.step a = some s') :
    s'.Spared := by
  cases moves_of_step ha with
  | hit => exact h.arrive (fun f fl _ _ hstage => nomatch hstage) fun hstage => nomatch hstage
  | @joins key flight hmissing hinflight =>
    refine h.arrive (fun f fl hfl hresult hstage => ?_) fun hstage => nomatch hstage
    obtain rfl := Stage.waiting.inj hstage
    obtain ⟨i, c, hc, -, hfetching⟩ := hcoherent.live key flight hinflight
    obtain rfl := Option.some.inj (hfl.symm.trans (hcoherent.led i c flight hc hfetching).1)
    cases hresult
  | @leads key hmissing hfree =>
    refine ⟨fun f fl hfl hresult d hd hstage => ?_, fun d hd hstage => ?_⟩
    · obtain hfl | ⟨-, rfl⟩ := of_getElem?_concat hfl
      · obtain hd | hd := mem_append.mp hd
        · exact h.flights f fl hfl hresult d hd hstage
        · obtain rfl := mem_singleton.mp hd
          cases hstage
      · cases hresult
    · obtain hd | hd := mem_append.mp hd
      · exact h.callers d hd hstage
      · obtain rfl := mem_singleton.mp hd
        cases hstage
  | cancels => exact h.proceed (fun _ _ _ _ _ => rfl) fun _ => rfl
  | @finishes index flight c result hc hstage hasked =>
    refine ⟨fun f fl hfl hresult d hd hdstage => ?_, fun d hd hdstage => ?_⟩
    · obtain hmem | rfl := mem_or_eq_of_mem_set hd
      · obtain ⟨rfl, rfl⟩ | ⟨-, hfl⟩ := of_getElem?_set hfl
        · obtain rfl := Option.some.inj hresult
          exact hspares c hc d hmem (by simp [Follows, hstage, hdstage])
        · exact h.flights f fl hfl hresult d hmem hdstage
      · cases hdstage
    · obtain hd | rfl := mem_or_eq_of_mem_set hd
      · exact h.callers d hd hdstage
      · exact hasked (Stage.ended.inj hdstage)
  | @gives index flight c result hc hstage hresult =>
    refine h.proceed (fun f fl _ _ hf => nomatch hf) fun hended => ?_
    obtain ⟨hcancelled, -⟩ | ⟨hcancelled, fl, hfl, hresult⟩ := hresult
    · exact hcancelled
    · obtain rfl := Stage.ended.inj hended
      exact h.flights flight fl hfl hresult c (mem_of_getElem? hc) hstage

end Steps

/-! Runs. -/

/-- The step neither asks for a key for which `None` is stored, nor cancels a fetch for which somebody waits who is
not cancelled. -/
def Undisturbed (s : MissionQueryCache κ ν) (a : CacheStep κ ν) : Prop := s.Keeps (fun _ => True) a ∧ s.Spares a

instance decidableKeeps [DecidableEq ν] (s : MissionQueryCache κ ν) : ∀ a, Decidable (s.Keeps (fun _ => True) a)
  | .call key => inferInstanceAs (Decidable (s.store.get? key = some none → ¬True))
  | .cancel _ | .finish _ _ | .resume _ => isTrue trivial

omit [DecidableEq κ] in
instance decidableSpares (s : MissionQueryCache κ ν) : ∀ a, Decidable (s.Spares a)
  | .finish index .cancelled =>
    inferInstanceAs (Decidable (∀ c ∈ s.callers[index]?, ∀ c' ∈ s.callers, Follows c c' = true → c'.cancelled = true))
  | .call _ | .cancel _ | .finish _ (.value _) | .finish _ .raised | .resume _ => isTrue trivial

instance decidableUndisturbed [DecidableEq ν] (s : MissionQueryCache κ ν) (a : CacheStep κ ν) :
    Decidable (s.Undisturbed a) := inferInstanceAs (Decidable (_ ∧ _))

section Runs
variable {s : MissionQueryCache κ ν} {steps : List (CacheStep κ ν)}

theorem coherent_of_exec (h : Machine.exec MissionQueryCache.step ({} : MissionQueryCache κ ν) steps = some s) : s.Coherent (· ≠ none) := by
  have hkeeps (s : MissionQueryCache κ ν) (a : CacheStep κ ν) : s.Keeps (· ≠ none) a := by
    cases a with
    | call key => exact fun _ hne => hne rfl
    | _ => trivial
  exact Machine.invariant (fun _ a _ hs ha => hs.step (hkeeps _ a) ha) .start h

theorem undisturbed_of_exec (hok : Machine.Along MissionQueryCache.step Undisturbed ({} : MissionQueryCache κ ν) steps)
    (h : Machine.exec MissionQueryCache.step ({} : MissionQueryCache κ ν) steps = some s) : s.Coherent (fun _ => True) ∧ s.Spared :=
  Machine.invariant_along (I := fun s => s.Coherent (fun _ => True) ∧ s.Spared)
    (fun _ _ _ hs hok ha => ⟨hs.1.step hok.1 ha, hs.2.step hs.1 hok.2 ha⟩) ⟨.start, .start⟩ hok h

theorem Coherent.rests_run {more : List (CacheStep κ ν)} {key : κ} {v : ν} : ∀ {s s' : MissionQueryCache κ ν},
    s.Coherent (· ≠ none) → s.store.get? key = some (some v) → Machine.exec MissionQueryCache.step s more = some s' →
    s'.started key = s.started key ∧ s'.store.get? key = some (some v) := by
  induction more with
  | nil =>
    intro s s' _ hstored h
    cases h
    exact ⟨rfl, hstored⟩
  | cons a more ih =>
    intro s s'' hs hstored h
    obtain ⟨s', ha, h⟩ := Machine.exec_cons h
    obtain ⟨hstarted, hstored'⟩ := hs.rests ha hstored
    have hs' : s'.Coherent (· ≠ none) := hs.step (by cases a <;> simp [Keeps]) ha
    obtain ⟨hstarted', hlast⟩ := ih hs' hstored' h
    exact ⟨hstarted'.trans hstarted, hlast⟩

/-- What holds in every state: one fetch a key, with its entry, and a stored value ends the fetches of its key. -/
structure OneFlight (s : MissionQueryCache κ ν) : Prop where
  single : ∀ (i j : Nat) (c c' : Caller κ ν), s.callers[i]? = some c → s.callers[j]? = some c' → c.key = c'.key →
    (∃ f, c.stage = .fetching f) → (∃ f, c'.stage = .fetching f) → i = j
  exact : ∀ key, (s.inflight.get? key).isSome ↔ ∃ c ∈ s.callers, c.key = key ∧ ∃ f, c.stage = .fetching f
  stored : ∀ key v, s.store.get? key = some (some v) → ∀ more s', Machine.exec MissionQueryCache.step s more = some s' →
    s'.started key = s.started key ∧ s'.store.get? key = some (some v)

/-- What the cache promises to its callers: one value, nothing stored by a failure, and no cancellation of others. -/
structure Promised (s : MissionQueryCache κ ν) : Prop where
  agreed : ∀ c ∈ s.callers, ∀ c' ∈ s.callers, c.key = c'.key → ∀ v v', c.stage = .ended (.value v) →
    c'.stage = .ended (.value v') → v = v'
  failed : ∀ (index : Nat) (c : Caller κ ν) (result : Settled ν) (s' : MissionQueryCache κ ν), s.callers[index]? = some c → (∀ v, result ≠ .value v) →
    s.step (.finish index result) = some s' → s'.store = s.store ∧ s'.store.get? c.key = none
  spared : ∀ c ∈ s.callers, c.stage = .ended .cancelled → c.cancelled = true

theorem Coherent.oneFlight (h : s.Coherent (· ≠ none)) : s.OneFlight where
  single i j c c' hc hc' hkey := by
    intro ⟨f, hf⟩ ⟨f', hf'⟩
    obtain ⟨hflight, hinflight⟩ := h.led i c f hc hf
    obtain ⟨hflight', hinflight'⟩ := h.led j c' f' hc' hf'
    rw [hkey, hinflight'] at hinflight
    obtain rfl := Option.some.inj hinflight
    exact congrArg Flight.leader (Option.some.inj (hflight.symm.trans hflight'))
  exact key := by
    constructor
    · intro hsome
      obtain ⟨f, hf⟩ := isSome_iff_exists.mp hsome
      obtain ⟨i, c, hc, hkey, hstage⟩ := h.live key f hf
      exact ⟨c, mem_of_getElem? hc, hkey, f, hstage⟩
    · intro ⟨c, hc, hkey, f, hstage⟩
      obtain ⟨i, hi⟩ := mem_iff_getElem?.mp hc
      rw [← hkey, (h.led i c f hi hstage).2]
      rfl
  stored key v hstored more s' hrun := h.rests_run hstored hrun

theorem Coherent.promised (h : s.Coherent fun _ => True) (hspared : s.Spared) : s.Promised where
  agreed c hc c' hc' hkey v v' hv hv' := by
    have hstored := h.returned c hc v hv trivial
    rw [hkey, h.returned c' hc' v' hv' trivial] at hstored
    exact (Option.some.inj hstored).symm
  failed index c result s' hc hfailed ha := by
    cases moves_of_step ha with
    | @finishes _ flight d _ hd hstage _ =>
      obtain rfl := Option.some.inj (hd.symm.trans hc)
      have hnone : s.store.get? d.key = none := by
        cases hstore : s.store.get? d.key with
        | none => rfl
        | some v => exact absurd hstore (h.unstored hd hstage trivial)
      cases result with
      | value v => exact absurd rfl (hfailed v)
      | raised => exact ⟨rfl, hnone⟩
      | cancelled => exact ⟨rfl, hnone⟩
  spared := hspared.callers

/-- In every run a key has one fetch at a time and none after a value; and in a run that is not disturbed all callers of
a key get one value, a failure stores nothing, and only who is cancelled fails with a cancellation. -/
theorem single_flight (h : Machine.exec MissionQueryCache.step ({} : MissionQueryCache κ ν) steps = some s) : s.OneFlight ∧
    (Machine.Along MissionQueryCache.step Undisturbed ({} : MissionQueryCache κ ν) steps → s.Promised) := by
  refine ⟨(coherent_of_exec h).oneFlight, fun hok => ?_⟩
  obtain ⟨hcoherent, hspared⟩ := undisturbed_of_exec hok h
  exact hcoherent.promised hspared

end Runs

/-! Three runs of two callers. -/

/-- The first caller is cancelled while the second waits for its fetch. -/
def leaderCancelled : List (CacheStep String Nat) :=
  [.call "k", .call "k", .cancel 0, .finish 0 .cancelled, .resume 1]

/-- The first fetch comes back with nothing. -/
def fetchedNone : List (CacheStep String Nat) :=
  [.call "k", .finish 0 (.value none), .call "k", .finish 1 (.value (some 5))]

/-- The second caller is not cancelled and fails with `CancelledError`, and one key has two values. -/
theorem disturbed_runs :
    (∃ s, Machine.exec MissionQueryCache.step {} leaderCancelled = some s ∧ ¬s.Promised) ∧
      ∃ s, Machine.exec MissionQueryCache.step {} fetchedNone = some s ∧ ¬s.Promised := by
  constructor
  · refine ⟨_, rfl, fun h => ?_⟩
    have hsecond := h.spared { key := "k", stage := .ended .cancelled } (by decide) rfl
    cases hsecond
  · refine ⟨_, rfl, fun h => ?_⟩
    have hagreed := h.agreed { key := "k", stage := .ended (.value none) } (by decide)
      { key := "k", stage := .ended (.value (some 5)) } (by decide) rfl none (some 5) rfl rfl
    cases hagreed

/-- The second caller is cancelled, and the first one's value is kept. -/
def followerCancelled : List (CacheStep String Nat) :=
  [.call "k", .call "k", .cancel 1, .resume 1, .finish 0 (.value (some 5)), .call "k"]

theorem followerCancelled_promised :
    ∃ s, Machine.exec MissionQueryCache.step {} followerCancelled = some s ∧ s.OneFlight ∧ s.Promised := by
  refine ⟨_, rfl, ?_⟩
  obtain ⟨hone, hpromised⟩ := @single_flight String Nat _ _ followerCancelled rfl
  exact ⟨hone, hpromised (by decide)⟩

end MissionQueryCache
end SelericSwarm.SingleFlight
