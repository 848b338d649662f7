import SelericSwarm.LeaseFencing
import SelericSwarm.RunEnding

/-! The generator of `stream_run_events` next to every other caller of the run
repository: it lists events, yields them, reads the run, and waits or returns. -/
open List Option

namespace SelericSwarm
open Keyed RunRepository

section Delivery
variable (lower : String → String)

def canViewEvent (event : ActivityEvent) (principal : Principal) : Bool :=
  if !principal.authenticated || !principal.canAccessWorkspace lower event.workspaceId then false
  else match event.visibility with
  | .internal => principal.isInternal lower
  | .admin => principal.isAdmin lower
  | .user => event.ownerUserId.all fun owner => principal.owns lower event.workspaceId owner

inductive StreamStep where
  | listing
  | yielding (rest : List ActivityEvent)
  | reading
  | waiting
  | returned

/-- The generator's locals; `sent` collects the events it has yielded. -/
structure RunStream where
  start : Nat
  cursor : Nat
  step : StreamStep := .listing
  sent : List ActivityEvent := []

/-- `committed` records the run's events at its terminal commit. -/
structure StreamState where
  repo : RunRepository := {}
  stream : Option RunStream := none
  committed : Option (List ActivityEvent) := none

inductive StreamAction where
  | call (op : RunOp)
  | connect (cursor : Nat)
  | list
  | next
  | read
  | wake

namespace RunStream
variable (principal : Principal) (runId : String)

def list (g : RunStream) (s : RunRepository) : Option RunStream :=
  match g.step with
  | .listing => some { g with step := .yielding (s.listEvents runId g.cursor) }
  | _ => none

def next (g : RunStream) : Option RunStream :=
  match g.step with
  | .yielding [] => some { g with step := .reading }
  | .yielding (event :: rest) => some { g with
      cursor := max g.cursor event.sequence
      sent := if canViewEvent lower event principal then g.sent ++ [event] else g.sent
      step := .yielding rest }
  | _ => none

def read (g : RunStream) (s : RunRepository) : Option RunStream :=
  match g.step with
  | .reading => some { g with
      step := if (s.get runId).all (·.status.terminal) then .returned else .waiting }
  | _ => none

def wake (g : RunStream) : Option RunStream :=
  match g.step with
  | .waiting => some { g with step := .listing }
  | _ => none

end RunStream

namespace StreamState
variable (principal : Principal) (runId : String)

def ended (w : StreamState) : Bool := (w.repo.get runId).any (·.status.terminal)

def onStream (w : StreamState) (f : RunStream → Option RunStream) : Option StreamState :=
  (w.stream.bind f).map fun g => { w with stream := some g }

def step (w : StreamState) : StreamAction → Option StreamState
  | .call op => (op.step w.repo).map fun repo => { w with
      repo := repo
      committed := if !w.ended runId && (repo.get runId).any (·.status.terminal) then
        some (repo.eventsOf runId) else w.committed }
  | .connect cursor =>
    if w.stream.isNone ∧ (w.repo.get runId).isSome then
      some { w with stream := some { start := cursor, cursor := cursor } }
    else none
  | .list => w.onStream fun g => g.list runId w.repo
  | .next => w.onStream fun g => g.next lower principal
  | .read => w.onStream fun g => g.read runId w.repo
  | .wake => w.onStream fun g => g.wake

end StreamState
end Delivery

/-- Strictly increasing sequence numbers. -/
def Ordered (events : List ActivityEvent) : Prop :=
  events.Pairwise fun a b => a.sequence < b.sequence

/-- The events behind one cursor and up to another. -/
def between (start cursor : Nat) (events : List ActivityEvent) : List ActivityEvent :=
  events.filter fun e => start < e.sequence && e.sequence ≤ cursor

theorem between_append (start cursor : Nat) (as bs : List ActivityEvent) :
    between start cursor (as ++ bs) = between start cursor as ++ between start cursor bs :=
  filter_append ..

namespace Ordered

theorem le_lastSequence {events : List ActivityEvent} (h : Ordered events) {e : ActivityEvent}
    (he : e ∈ events) : e.sequence ≤ lastSequence events := by
  obtain rfl | ⟨front, last, rfl⟩ := events.eq_nil_or_concat'
  · cases he
  have hlast : lastSequence (front ++ [last]) = last.sequence := by simp [lastSequence]
  rw [hlast]
  obtain he | he := mem_append.mp he
  · have := (pairwise_append.mp h).2.2 e he last (by simp)
    omega
  · rw [mem_singleton.mp he]

theorem concat {events : List ActivityEvent} (h : Ordered events) {e : ActivityEvent}
    (he : lastSequence events < e.sequence) : Ordered (events ++ [e]) := by
  refine pairwise_append.mpr ⟨h, pairwise_singleton _ _, ?_⟩
  intro a ha b hb
  have := h.le_lastSequence ha
  rw [mem_singleton.mp hb]
  omega

theorem advance {listed : List ActivityEvent} (h : Ordered listed) {start cursor : Nat}
    (hs : start ≤ cursor) {event : ActivityEvent} {rest : List ActivityEvent}
    (hr : (listed.filter fun e => cursor < e.sequence) = event :: rest) :
    between start event.sequence listed = between start cursor listed ++ [event] ∧
      (listed.filter fun e => event.sequence < e.sequence) = rest := by
  induction listed with
  | nil => cases hr
  | cons x listed ih =>
    obtain ⟨hlt, ho⟩ := pairwise_cons.mp h
    by_cases hx : cursor < x.sequence
    · have hall : ∀ e ∈ listed, cursor < e.sequence := fun e he => hx.trans (hlt e he)
      rw [filter_cons_of_pos (by simpa using hx),
        filter_eq_self.mpr (by simpa using hall)] at hr
      obtain ⟨rfl, rfl⟩ := List.cons.inj hr
      have h1 : between start x.sequence listed = [] := by
        rw [between, filter_eq_nil_iff]
        intro e he
        have := hlt e he
        simp only [Bool.and_eq_true, decide_eq_true_eq]
        omega
      have h2 : between start cursor listed = [] := by
        rw [between, filter_eq_nil_iff]
        intro e he
        have := hall e he
        simp only [Bool.and_eq_true, decide_eq_true_eq]
        omega
      have h3 : start < x.sequence := by omega
      have h4 : ¬x.sequence ≤ cursor := by omega
      rw [between] at h1 h2
      exact ⟨by simp [between, h1, h2, h3, h4], by simpa using hlt⟩
    · rw [filter_cons_of_neg (by simpa using hx)] at hr
      obtain ⟨h1, h2⟩ := ih ho hr
      have hnew : event ∈ listed.filter fun e => cursor < e.sequence := by simp [hr]
      have hnew : cursor < event.sequence := by simpa using (mem_filter.mp hnew).2
      have h3 : ¬event.sequence < x.sequence := by omega
      have h4 : x.sequence ≤ event.sequence := by omega
      have h5 : x.sequence ≤ cursor := by omega
      rw [between, between] at h1
      refine ⟨?_, by simp [h3, h2]⟩
      by_cases h6 : start < x.sequence <;> simp [between, h4, h5, h6, h1]

end Ordered

theorem Announced.later {old events : List ActivityEvent} {event : ActivityEvent} (h : Announced old event events) :
    events = old ∨ ∃ stored, events = old ++ [stored] ∧ lastSequence old < stored.sequence := by
  cases h with
  | fresh stored new id type next => exact Or.inr ⟨stored, rfl, by omega⟩
  | reused => exact Or.inl rfl

variable {Does : Deed → Prop} {v' : RunView}

/-- A call files at most one event, behind all earlier ones. -/
theorem Change.later {v : RunView} (h : Change Does v v') :
    v'.events = v.events ∨ ∃ stored, v'.events = v.events ++ [stored] ∧ lastSequence v.events < stored.sequence := by
  cases h with
  | same => exact Or.inl rfl
  | claimed => exact Or.inl rfl
  | renewed => exact Or.inl rfl
  | started => exact Or.inl rfl
  | retried => exact Or.inl rfl
  | settled status event errorCode errorMessage moment attempts running unsettled terminal type does
      announced => exact announced.later
  | cancelled moment event unsettled does announced =>
    cases event with
    | none => exact Or.inl announced
    | some event => exact announced.later
  | appended event new later => exact Or.inr ⟨event, rfl, later⟩

theorem Change.events_prefix {v : RunView} (h : Change Does v v') : v.events <+: v'.events := by
  obtain he | ⟨stored, he, -⟩ := h.later
  · exact he ▸ prefix_rfl
  · exact he ▸ prefix_append _ _

theorem Change.ordered {v : RunView} (h : Change Does v v') (ho : Ordered v.events) : Ordered v'.events := by
  obtain he | ⟨stored, he, hlater⟩ := h.later
  · rwa [he]
  · rw [he]
    exact ho.concat hlater

theorem Change.positive {v : RunView} (h : Change Does v v') (hp : ∀ e ∈ v.events, 0 < e.sequence) :
    ∀ e ∈ v'.events, 0 < e.sequence := by
  intro e he
  obtain hsame | ⟨stored, hadded, hlater⟩ := h.later
  · exact hp e (hsame ▸ he)
  · rw [hadded] at he
    obtain he | he := mem_append.mp he
    · exact hp e he
    · rw [mem_singleton.mp he]
      omega

namespace RunOp
variable {s s' : RunRepository} {op : RunOp} {runId : String}

theorem step_extends (hw : WellFormed s) (hs : op.step s = some s') {run : Run} (hrun : s.get runId = some run) :
    ∃ run', s'.get runId = some run' ∧ s.eventsOf runId <+: s'.eventsOf runId ∧
      (run.status.terminal = true → run'.status.terminal = true) := by
  have hv := view_of_get hrun
  obtain ⟨new, -, hf, rfl⟩ | hsteps := RunOp.step_cases hw hs
  · have hne : new.run.id ≠ runId := by
      rintro rfl
      rw [RunRepository.get, hf.1] at hrun
      cases hrun
    obtain ⟨hr, -, he⟩ := view_eq (submit_view_of_ne hf hne ▸ hv)
    exact ⟨run, hr, he ▸ prefix_rfl, id⟩
  · obtain ⟨v', hv', hch⟩ := hsteps.view runId _ hv
    obtain ⟨hr, -, he⟩ := view_eq hv'
    refine ⟨v'.run, hr, he ▸ hch.events_prefix, fun ht => ?_⟩
    rw [(hch.absorbed ht).1]
    exact ht

theorem step_events {P : List ActivityEvent → Prop} (hnil : P [])
    (hchange : ∀ (Does : Deed → Prop) (v v' : RunView), Change Does v v' → P v.events → P v'.events)
    (hw : WellFormed s) (hs : op.step s = some s') (h : ∀ run, s.get runId = some run → P (s.eventsOf runId)) :
    ∀ run, s'.get runId = some run → P (s'.eventsOf runId) := by
  intro run hrun
  obtain ⟨new, -, hf, rfl⟩ | hsteps := RunOp.step_cases hw hs
  · by_cases hr : new.run.id = runId
    · subst hr
      rw [(view_eq (submit_view_self hf hw.toWellKeyed)).2.2]
      exact hnil
    · have hv := view_of_get hrun
      rw [submit_view_of_ne hf hr] at hv
      obtain ⟨hold, -, he⟩ := view_eq hv
      exact he ▸ h run hold
  · cases hold : s.get runId with
    | none =>
      have hstored := hsteps.stored runId
      rw [show s'.items.get? runId = some run from hrun, show s.items.get? runId = none from hold] at hstored
      cases hstored
    | some old =>
      obtain ⟨v', hv', hch⟩ := hsteps.view runId _ (view_of_get hold)
      rw [(view_eq hv').2.2]
      exact hchange _ _ _ hch (h old hold)

end RunOp

section Completeness
variable (lower : String → String) (principal : Principal)

def StreamStep.midway : StreamStep → Bool
  | .yielding _ | .reading => true
  | _ => false

/-- What the stream has yielded is the visible part of its last listing, from its
starting cursor up to its cursor. -/
structure Follows (events : List ActivityEvent) (committed : Option (List ActivityEvent))
    (g : RunStream) (listed : List ActivityEvent) : Prop where
  listed_prefix : listed <+: events
  sent : g.sent = (between g.start g.cursor listed).filter fun e => canViewEvent lower e principal
  rest : (listed.filter fun e => g.cursor < e.sequence) =
    match g.step with | .yielding rest => rest | _ => []
  cursor : g.cursor = g.start ∨ ∃ e ∈ listed, e.sequence = g.cursor
  start_le : g.start ≤ g.cursor
  settled : g.step.midway = true → ∀ C, committed = some C → C <+: listed
  finished : g.step = .returned → ∃ C, committed = some C ∧ C <+: listed

namespace Follows
variable {lower principal} {events listed : List ActivityEvent} {C : Option (List ActivityEvent)}
  {g g' : RunStream}

theorem extend (h : Follows lower principal events C g listed) {events' : List ActivityEvent}
    (he : events <+: events') : Follows lower principal events' C g listed :=
  { h with listed_prefix := h.listed_prefix.trans he }

theorem later_beyond (h : Follows lower principal events C g listed) (ho : Ordered events)
    {later : List ActivityEvent} (hl : events = listed ++ later) :
    between g.start g.cursor later = [] := by
  rw [between, filter_eq_nil_iff]
  intro e he
  simp only [Bool.and_eq_true, decide_eq_true_eq, not_and, not_le]
  intro hstart
  obtain hc | ⟨x, hx, hc⟩ := h.cursor
  · omega
  · rw [Ordered, hl] at ho
    have := (pairwise_append.mp ho).2.2 x hx e he
    omega

theorem list {s : RunRepository} {runId : String} (h : Follows lower principal (s.eventsOf runId) C g listed)
    (ho : Ordered (s.eventsOf runId)) (hC : ∀ D, C = some D → D <+: s.eventsOf runId)
    (hs : g.list runId s = some g') : Follows lower principal (s.eventsOf runId) C g' (s.eventsOf runId) := by
  unfold RunStream.list at hs
  cases hg : g.step with
  | listing =>
    rw [hg] at hs
    obtain rfl := Option.some.inj hs
    obtain ⟨later, hl⟩ := h.listed_prefix
    refine ⟨prefix_rfl, ?_, rfl, ?_, h.start_le, fun _ => hC, nofun⟩
    · rw [h.sent, ← hl, between_append, h.later_beyond ho hl.symm, append_nil]
    · obtain hc | ⟨e, he, hc⟩ := h.cursor
      · exact Or.inl hc
      · exact Or.inr ⟨e, h.listed_prefix.subset he, hc⟩
  | yielding => simp [hg] at hs
  | reading => simp [hg] at hs
  | waiting => simp [hg] at hs
  | returned => simp [hg] at hs

theorem next (h : Follows lower principal events C g listed) (ho : Ordered events)
    (hs : g.next lower principal = some g') : Follows lower principal events C g' listed := by
  unfold RunStream.next at hs
  cases hg : g.step with
  | yielding rest =>
    have hrest := h.rest
    rw [hg] at hrest hs
    cases rest with
    | nil =>
      obtain rfl := Option.some.inj hs
      exact ⟨h.listed_prefix, h.sent, hrest, h.cursor, h.start_le,
        fun _ => h.settled (by rw [hg]; rfl), nofun⟩
    | cons event rest =>
      obtain rfl := Option.some.inj hs
      have hol : Ordered listed := ho.sublist h.listed_prefix.sublist
      obtain ⟨hupto, hbeyond⟩ := hol.advance h.start_le hrest
      have hnew : event ∈ listed.filter fun e => g.cursor < e.sequence := by simp [hrest]
      obtain ⟨hmem, hnew⟩ := mem_filter.mp hnew
      have hmax : max g.cursor event.sequence = event.sequence := by
        have : g.cursor < event.sequence := by simpa using hnew
        omega
      refine ⟨h.listed_prefix, ?_, ?_, Or.inr ⟨event, hmem, hmax.symm⟩, ?_, ?_, nofun⟩
      · dsimp only
        rw [hmax, hupto, filter_append, ← h.sent]
        by_cases hv : canViewEvent lower event principal = true <;> simp [hv]
      · dsimp only
        rw [hmax, hbeyond]
      · exact h.start_le.trans (le_max_left _ _)
      · exact fun _ => h.settled (by rw [hg]; rfl)
  | listing => simp [hg] at hs
  | reading => simp [hg] at hs
  | waiting => simp [hg] at hs
  | returned => simp [hg] at hs

theorem read {s : RunRepository} {runId : String} {run : Run} (hrun : s.get runId = some run)
    (h : Follows lower principal events C g listed)
    (hC : run.status.terminal = true → C.isSome) (hs : g.read runId s = some g') :
    Follows lower principal events C g' listed := by
  unfold RunStream.read at hs
  cases hg : g.step with
  | reading =>
    rw [hg, hrun] at hs
    obtain rfl := Option.some.inj hs
    have hrest := h.rest
    rw [hg] at hrest
    cases ht : run.status.terminal with
    | true =>
      obtain ⟨D, hD⟩ := isSome_iff_exists.mp (hC ht)
      have hsettled := h.settled (by rw [hg]; rfl) D hD
      exact ⟨h.listed_prefix, h.sent, by simpa [ht] using hrest, h.cursor, h.start_le,
        by simp [ht, StreamStep.midway], fun _ => ⟨D, hD, hsettled⟩⟩
    | false =>
      exact ⟨h.listed_prefix, h.sent, by simpa [ht] using hrest, h.cursor, h.start_le,
        by simp [ht, StreamStep.midway], by simp [ht]⟩
  | listing => simp [hg] at hs
  | yielding => simp [hg] at hs
  | waiting => simp [hg] at hs
  | returned => simp [hg] at hs

theorem wake (h : Follows lower principal events C g listed) (hs : g.wake = some g') :
    Follows lower principal events C g' listed := by
  unfold RunStream.wake at hs
  cases hg : g.step with
  | waiting =>
    rw [hg] at hs
    obtain rfl := Option.some.inj hs
    have hrest := h.rest
    rw [hg] at hrest
    exact ⟨h.listed_prefix, h.sent, hrest, h.cursor, h.start_le, nofun, nofun⟩
  | listing => simp [hg] at hs
  | yielding => simp [hg] at hs
  | reading => simp [hg] at hs
  | returned => simp [hg] at hs

end Follows

structure StreamInv (runId : String) (w : StreamState) : Prop where
  wellFormed : WellFormed w.repo
  ordered : ∀ run, w.repo.get runId = some run → Ordered (w.repo.eventsOf runId)
  committed : ∀ run, w.repo.get runId = some run → run.status.terminal = true →
    ∃ C, w.committed = some C
  before : ∀ C, w.committed = some C → w.ended runId = true ∧ C <+: w.repo.eventsOf runId
  stream : ∀ g, w.stream = some g → (w.repo.get runId).isSome ∧
    ∃ listed, Follows lower principal (w.repo.eventsOf runId) w.committed g listed

/-- A terminal commit between the listing and the run read that follows it. -/
def StreamState.interrupts (runId : String) (w : StreamState) : StreamAction → Bool
  | .call op => w.stream.any (·.step.midway) && !w.ended runId &&
    ((op.apply w.repo).get runId).any (·.status.terminal)
  | _ => false

variable {lower principal} {runId : String} {w w' : StreamState}

theorem onStream_inv (h : StreamInv lower principal runId w) {f : RunStream → Option RunStream}
    (hf : ∀ g g' listed, f g = some g' → w.stream = some g → (w.repo.get runId).isSome →
      Follows lower principal (w.repo.eventsOf runId) w.committed g listed →
      ∃ listed', Follows lower principal (w.repo.eventsOf runId) w.committed g' listed')
    (hs : w.onStream f = some w') : StreamInv lower principal runId w' := by
  simp only [StreamState.onStream, map_eq_some_iff, bind_eq_some_iff] at hs
  obtain ⟨g', ⟨g, hg, hfg⟩, rfl⟩ := hs
  obtain ⟨hrun, listed, hfol⟩ := h.stream g hg
  refine { h with stream := ?_ }
  rintro _ ⟨⟩
  exact ⟨hrun, hf g g' listed hfg hg hrun hfol⟩

theorem call_inv (h : StreamInv lower principal runId w) {op : RunOp}
    (hok : w.interrupts runId (.call op) = false)
    (hs : w.step lower principal runId (.call op) = some w') : StreamInv lower principal runId w' := by
  simp only [StreamState.step, map_eq_some_iff] at hs
  obtain ⟨repo, hop, rfl⟩ := hs
  have hrepo := (RunOp.step_apply hop).2
  refine ⟨RunOp.step_wellFormed h.wellFormed hop,
    RunOp.step_events .nil (fun _ _ _ hch => hch.ordered) h.wellFormed hop h.ordered, ?_, ?_, ?_⟩
  · intro run hr ht
    dsimp only at hr ⊢
    split
    · exact ⟨_, rfl⟩
    next hc =>
      simp only [hr, any_some, ht, Bool.and_true, Bool.not_eq_true'] at hc
      have hc : w.ended runId = true := by simpa using hc
      obtain ⟨old, hold, hterm⟩ := (Option.any_eq_true _ _).mp hc
      exact h.committed old hold hterm
  · intro C hC
    dsimp only at hC ⊢
    split at hC
    next hc =>
      obtain rfl := Option.some.inj hC
      exact ⟨(Bool.and_eq_true_iff.mp hc).2, prefix_rfl⟩
    next hc =>
      obtain ⟨hended, hpre⟩ := h.before C hC
      obtain ⟨old, hold, hterm⟩ := (Option.any_eq_true _ _).mp hended
      obtain ⟨run', hr', hext, hkeep⟩ := RunOp.step_extends h.wellFormed hop hold
      exact ⟨by simp [StreamState.ended, hr', hkeep hterm], hpre.trans hext⟩
  · intro g hg
    dsimp only at hg ⊢
    obtain ⟨hrun, listed, hfol⟩ := h.stream g hg
    obtain ⟨old, hold⟩ := isSome_iff_exists.mp hrun
    obtain ⟨run', hr', hext, -⟩ := RunOp.step_extends h.wellFormed hop hold
    refine ⟨by rw [hr']; rfl, listed, ?_⟩
    split
    next hc =>
      -- the run has just ended, so the generator is not midway
      simp only [Bool.and_eq_true, Bool.not_eq_true'] at hc
      have hmid : g.step.midway = false := by
        simpa [StreamState.interrupts, hg, hrepo, hc.1, hc.2] using hok
      have hnot : g.step ≠ .returned := by
        intro hret
        obtain ⟨C, hC, -⟩ := hfol.finished hret
        rw [(h.before C hC).1] at hc
        cases hc.1
      exact { hfol.extend hext with
        settled := fun hm => by rw [hmid] at hm; cases hm
        finished := fun hret => absurd hret hnot }
    next => exact hfol.extend hext

theorem step_inv (h : StreamInv lower principal runId w) {a : StreamAction}
    (hok : w.interrupts runId a = false) (hs : w.step lower principal runId a = some w') :
    StreamInv lower principal runId w' := by
  cases a with
  | call op => exact call_inv h hok hs
  | connect cursor =>
    simp only [StreamState.step, ite_none_right_eq_some, Option.some.injEq] at hs
    obtain ⟨⟨-, hrun⟩, rfl⟩ := hs
    refine { h with stream := ?_ }
    rintro _ ⟨⟩
    refine ⟨hrun, [], nil_prefix, rfl, rfl, Or.inl rfl, Nat.le_refl _, nofun, nofun⟩
  | list =>
    refine onStream_inv h (fun g g' listed hf hg hrun hfol => ?_) hs
    obtain ⟨run, hr⟩ := isSome_iff_exists.mp hrun
    exact ⟨_, hfol.list (h.ordered run hr) (fun D hD => (h.before D hD).2) hf⟩
  | next =>
    refine onStream_inv h (fun g g' listed hf hg hrun hfol => ?_) hs
    obtain ⟨run, hr⟩ := isSome_iff_exists.mp hrun
    exact ⟨_, hfol.next (h.ordered run hr) hf⟩
  | read =>
    refine onStream_inv h (fun g g' listed hf hg hrun hfol => ?_) hs
    obtain ⟨run, hr⟩ := isSome_iff_exists.mp hrun
    refine ⟨_, hfol.read hr (fun ht => ?_) hf⟩
    obtain ⟨C, hC⟩ := h.committed run hr ht
    rw [hC]
    rfl
  | wake => exact onStream_inv h (fun g g' listed hf hg hrun hfol => ⟨_, hfol.wake hf⟩) hs

theorem between_of_returned {events listed : List ActivityEvent} {C : Option (List ActivityEvent)}
    {g : RunStream} (h : Follows lower principal events C g listed) (ho : Ordered events)
    (hr : g.step = .returned) :
    Ordered g.sent ∧ ∃ D, C = some D ∧ ∀ e ∈ D, canViewEvent lower e principal = true →
      g.start < e.sequence → e ∈ g.sent := by
  have hol : Ordered listed := ho.sublist h.listed_prefix.sublist
  rw [h.sent]
  refine ⟨hol.sublist (filter_sublist.trans filter_sublist), ?_⟩
  obtain ⟨D, hD, hpre⟩ := h.finished hr
  refine ⟨D, hD, fun e he hv hstart => ?_⟩
  have hrest := h.rest
  rw [hr] at hrest
  have hle : e.sequence ≤ g.cursor := by
    have := filter_eq_nil_iff.mp hrest e (hpre.subset he)
    simpa using this
  simp [between, hpre.subset he, hv, hstart, hle]

end Completeness

/-- If no terminal commit falls between a listing and the run read after it, a
stream that returns has yielded, in strictly increasing order, every visible
event behind its starting cursor that was there at the run's terminal commit. -/
theorem stream_complete (lower : String → String) (principal : Principal) {runId : String}
    {actions : List StreamAction} {w : StreamState} {g : RunStream}
    (h : Machine.exec (StreamState.step lower principal runId) {} actions = some w)
    (hquiet : Machine.Along (StreamState.step lower principal runId)
      (fun w a => w.interrupts runId a = false) {} actions)
    (hg : w.stream = some g) (hr : g.step = .returned) :
    g.sent.Pairwise (fun a b => a.sequence < b.sequence) ∧ ∃ C, w.committed = some C ∧
      ∀ e ∈ C, canViewEvent lower e principal = true → g.start < e.sequence → e ∈ g.sent := by
  have hempty : StreamInv lower principal runId {} := by
    refine ⟨RunOp.empty_wellFormed, ?_, ?_, nofun, nofun⟩
    · simp [RunRepository.get]
    · simp [RunRepository.get]
  have hinv := Machine.invariant_along (fun _ _ _ hi hok hs => step_inv hi hok hs) hempty hquiet h
  obtain ⟨hrun, listed, hfol⟩ := hinv.stream g hg
  obtain ⟨run, hrun⟩ := isSome_iff_exists.mp hrun
  exact between_of_returned hfol (hinv.ordered run hrun) hr

def StreamStep.isReturned : StreamStep → Bool
  | .returned => true
  | _ => false

theorem StreamStep.eq_returned {step : StreamStep} (h : step.isReturned = true) : step = .returned := by
  cases step <;> first | rfl | cases h

/-- The requester of `lostOnce` and the cancellation the endpoint files for that run. -/
def requester : Principal where
  principalId := "p"
  workspaceId := "w"
  userId := "u"
  authenticated := true

def cancelLostOnce : RunOp :=
  let runId := newId "run" .nil
  .cancel runId 5 (some {
    id := cancelledEventId runId, threadId := "t", workspaceId := "w", runId := some runId,
    ownerUserId := some "u", eventType := "run.cancelled" })

/-- Listed before the cancellation, read after it. -/
def cancelledBetween : List StreamAction :=
  (lostOnce.take 3).map .call ++ [.connect 0, .list, .call cancelLostOnce, .next, .read]

def cancelledBefore : List StreamAction :=
  (lostOnce.take 3).map .call ++ [.connect 0, .call cancelLostOnce, .list, .next, .next, .read]

theorem stream_misses_cancellation : ∃ w g C, ∃ e ∈ C,
    Machine.exec (StreamState.step String.toLower requester (newId "run" .nil)) {} cancelledBetween =
      some w ∧ w.stream = some g ∧ g.step = .returned ∧ w.committed = some C ∧
    canViewEvent String.toLower e requester = true ∧ g.start < e.sequence ∧ e ∉ g.sent := by
  have h : (Machine.exec (StreamState.step String.toLower requester (newId "run" .nil)) {}
      cancelledBetween).any (fun w => w.stream.any fun g => w.committed.any fun C => C.any fun e =>
        g.step.isReturned && canViewEvent String.toLower e requester && g.start < e.sequence &&
          g.sent.isEmpty) = true := by decide
  obtain ⟨w, hw, h⟩ := (Option.any_eq_true _ _).mp h
  obtain ⟨g, hg, h⟩ := (Option.any_eq_true _ _).mp h
  obtain ⟨C, hC, h⟩ := (Option.any_eq_true _ _).mp h
  obtain ⟨e, he, h⟩ := List.any_eq_true.mp h
  simp only [Bool.and_eq_true, decide_eq_true_eq, List.isEmpty_iff] at h
  obtain ⟨⟨⟨hret, hview⟩, hlt⟩, hnil⟩ := h
  exact ⟨w, g, C, e, he, hw, hg, StreamStep.eq_returned hret, hC, hview, hlt, by simp [hnil]⟩

theorem stream_complete_cancelledBefore : ∃ w g,
    Machine.exec (StreamState.step String.toLower requester (newId "run" .nil)) {} cancelledBefore =
      some w ∧ w.stream = some g ∧ g.sent.length = 1 ∧
    ∃ C, w.committed = some C ∧ ∀ e ∈ C, canViewEvent String.toLower e requester = true →
      g.start < e.sequence → e ∈ g.sent := by
  have h : (Machine.exec (StreamState.step String.toLower requester (newId "run" .nil)) {}
      cancelledBefore).any (fun w => w.stream.any fun g =>
        g.step.isReturned && g.sent.length = 1) = true := by decide
  obtain ⟨w, hw, h⟩ := (Option.any_eq_true _ _).mp h
  obtain ⟨g, hg, h⟩ := (Option.any_eq_true _ _).mp h
  obtain ⟨hret, hlen⟩ := Bool.and_eq_true_iff.mp h
  exact ⟨w, g, hw, hg, of_decide_eq_true hlen, (stream_complete String.toLower requester hw
    (by decide) hg (StreamStep.eq_returned hret)).2⟩

end SelericSwarm
