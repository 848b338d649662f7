import Mathlib.Data.Finset.Dedup
import Mathlib.Data.Finset.Insert
import Mathlib.Data.List.Sort
import SelericSwarm.Machine
import SelericSwarm.OfficeAgents
import SelericSwarm.Reordering

/-! The store of the office page: snapshots, and the events folded into it in between. -/
open List

namespace SelericSwarm.Office

structure OfficeSnapshot where
  missionId : Option String := none
  query : String := ""
  status : Option String := none
  stage : Option String := none
  missionLead : Option String := none
  leadAgentId : Option String := none
  lastSeq : Option Nat := none
  agents : List OfficeAgent := []
  timeline : List SwarmUIEvent := []

/-- What `reset` leaves. -/
structure OfficeStore where
  missionId : Option String := none
  query : String := ""
  status : String := "idle"
  stage : String := "intake"
  missionLead : Option String := none
  leadAgentId : Option String := none
  agents : Agents := fun _ => none
  agentOrder : List String := []
  timeline : List SwarmUIEvent := []
  lastSeq : Nat := 0
  seenSeq : Finset Nat := ∅
  lastEvent : Option SwarmUIEvent := none

/-- `bySeq.set`, on the entries in the order of their insertion. -/
def setBySeq (bySeq : List SwarmUIEvent) (e : SwarmUIEvent) : List SwarmUIEvent :=
  if bySeq.any (·.seq = e.seq) then bySeq.map fun f => if f.seq = e.seq then e else f else bySeq ++ [e]

/-- The rows of the snapshot that are missing. -/
def addBySeq (bySeq : List SwarmUIEvent) (e : SwarmUIEvent) : List SwarmUIEvent :=
  if bySeq.any (·.seq = e.seq) then bySeq else setBySeq bySeq e

def sortBySeq (es : List SwarmUIEvent) : List SwarmUIEvent := es.insertionSort fun a b => a.seq ≤ b.seq

def SwarmUIEvent.crowned (ev : SwarmUIEvent) : Option String :=
  if ev.eventType = "leadership_transferred" ∧ ev.agentId ≠ some "" then ev.agentId else none

def SwarmUIEvent.verdict (ev : SwarmUIEvent) : Option String :=
  if ev.eventType = "mission_completed" then some "completed"
  else if ev.eventType = "mission_blocked" then some "blocked"
  else none

/-- `ev.agentId.replace(/_agent$/, "")` -/
def withoutAgent (id : String) : String :=
  if id.endsWith "_agent" then String.ofList (id.toList.take (id.length - 6)) else id

namespace OfficeStore

def hydrate (s : OfficeStore) (snap : OfficeSnapshot) : OfficeStore :=
  let bySeq := snap.timeline.foldl addBySeq (s.timeline.foldl setBySeq [])
  let timeline := sortBySeq bySeq
  { missionId := snap.missionId <|> s.missionId
    query := if snap.query ≠ "" then snap.query else s.query
    status := snap.status.getD s.status
    stage := snap.stage.getD s.stage
    missionLead := snap.missionLead <|> s.missionLead
    leadAgentId := snap.leadAgentId <|> s.leadAgentId
    agents := if snap.agents = [] then s.agents else recordOf snap.agents
    agentOrder := if snap.agents = [] then s.agentOrder else snap.agents.map (·.agentId)
    timeline
    lastSeq := (timeline.map (·.seq)).foldl max (max s.lastSeq (snap.lastSeq.getD 0))
    seenSeq := (timeline.map (·.seq)).toFinset
    lastEvent := timeline.getLast? <|> s.lastEvent }

def ingestEvent (s : OfficeStore) (ev : SwarmUIEvent) : OfficeStore :=
  if ev.seq ∈ s.seenSeq then s
  else { s with
    timeline := sortBySeq (s.timeline ++ [ev])
    agents := applyEventToAgents s.agents ev
    seenSeq := insert ev.seq s.seenSeq
    leadAgentId := ev.crowned <|> s.leadAgentId
    missionLead := ev.crowned.map withoutAgent <|> s.missionLead
    lastSeq := max s.lastSeq ev.seq
    lastEvent := some ev
    status := ev.verdict.getD s.status }

end OfficeStore

inductive StoreCall where
  | ingestEvent (ev : SwarmUIEvent)
  | hydrate (snap : OfficeSnapshot)

namespace StoreCall

def events : StoreCall → List SwarmUIEvent
  | .ingestEvent ev => [ev]
  | .hydrate snap => snap.timeline

def MissionLevel : StoreCall → Prop
  | .ingestEvent _ => True
  | .hydrate snap => snap.agents = []

/-- What a snapshot says of the mission, without its rows. -/
def bare : StoreCall → Option StoreCall
  | .ingestEvent _ => none
  | .hydrate snap => some (.hydrate { snap with timeline := [] })

def on (s : OfficeStore) : StoreCall → OfficeStore
  | .ingestEvent ev => s.ingestEvent ev
  | .hydrate snap => s.hydrate snap

end StoreCall

/-- The calls with the events in order, behind what the snapshots say of the mission. -/
def inOrder (calls : List StoreCall) (events : List SwarmUIEvent) : List StoreCall :=
  calls.filterMap StoreCall.bare ++ events.map .ingestEvent

/-! Events whose order matters. -/

section Clashes
variable (roster : List String)

def Present (id : Option String) : Prop := ∃ k ∈ id, k ≠ "" ∧ k ∈ roster

instance (id : Option String) : Decidable (Present roster id) :=
  inferInstanceAs (Decidable (∃ k ∈ id, k ≠ "" ∧ k ∈ roster))

def Change.Clash : Change → Change → Prop
  | .set i _, .set j _ => i = j ∧ Present roster i
  | .set i p, .uncrown | .uncrown, .set i p => p.missionLead = true ∧ Present roster i
  | .set i _, .settle | .settle, .set i _ => Present roster i
  | .uncrown, .uncrown | .uncrown, .settle | .settle, .uncrown | .settle, .settle => False

/-- The change passes all agents over. -/
def Change.Idle : Change → Prop
  | .set i _ => ¬Present roster i
  | .uncrown | .settle => roster = []

def Opposed (a b : Option String) : Prop := a ≠ none ∧ b ≠ none ∧ a ≠ b

/-- The two write one agent, or different leads or outcomes of the mission. -/
def SwarmUIEvent.Clash (e f : SwarmUIEvent) : Prop :=
  (∃ c ∈ e.changes, ∃ d ∈ f.changes, c.Clash roster d) ∨ Opposed e.crowned f.crowned ∨ Opposed e.verdict f.verdict

/-- The event writes nothing. -/
def SwarmUIEvent.Inert (e : SwarmUIEvent) : Prop :=
  (∀ c ∈ e.changes, c.Idle roster) ∧ e.crowned = none ∧ e.verdict = none

instance (c d : Change) : Decidable (c.Clash roster d) := by
  unfold Change.Clash
  split <;> infer_instance

instance (c : Change) : Decidable (c.Idle roster) := by
  unfold Change.Idle
  split <;> infer_instance

instance (a b : Option String) : Decidable (Opposed a b) :=
  inferInstanceAs (Decidable (a ≠ none ∧ b ≠ none ∧ a ≠ b))

instance (e f : SwarmUIEvent) : Decidable (e.Clash roster f) := by
  unfold SwarmUIEvent.Clash
  infer_instance

instance (e : SwarmUIEvent) : Decidable (e.Inert roster) := by
  unfold SwarmUIEvent.Inert
  infer_instance

end Clashes

/-- Beyond the rows of the starting snapshot: an event comes behind no later one that it clashes with, and
a snapshot brings no event that writes something, nor anything else than what is shown once an event has
written it. -/
def Sound (base : List SwarmUIEvent) (s : OfficeStore) : StoreCall → Prop
  | .ingestEvent e =>
    e.seq ∉ s.seenSeq → ∀ f ∈ s.timeline, f ∉ base → e.seq < f.seq → ¬e.Clash s.agentOrder f
  | .hydrate snap =>
    (∀ e ∈ snap.timeline, e.seq ∉ s.seenSeq → e.Inert s.agentOrder) ∧
      ((∀ e ∈ s.timeline, e ∉ base → e.crowned = none) ∨
        (∀ l ∈ snap.leadAgentId, s.leadAgentId = some l) ∧ ∀ l ∈ snap.missionLead, s.missionLead = some l) ∧
      ((∀ e ∈ s.timeline, e ∉ base → e.verdict = none) ∨ ∀ l ∈ snap.status, s.status = l)

instance (base : List SwarmUIEvent) (s : OfficeStore) (c : StoreCall) : Decidable (Sound base s c) := by
  unfold Sound
  split <;> infer_instance

/-! Rows by their sequences. -/

section Rows
variable {m es : List SwarmUIEvent} {e f : SwarmUIEvent}

theorem any_seq_iff : m.any (fun f => decide (f.seq = e.seq)) = true ↔ ∃ f ∈ m, f.seq = e.seq := by
  simp [List.any_eq_true]

theorem setBySeq_of_new (h : ∀ f ∈ m, f.seq ≠ e.seq) : setBySeq m e = m ++ [e] := by
  have hany : ¬m.any (fun f => decide (f.seq = e.seq)) = true := by simpa [List.any_eq_true] using h
  rw [setBySeq, if_neg hany]

/-- Rows with sequences of their own are all set anew. -/
theorem foldl_setBySeq (h : (m ++ es).Pairwise fun a b => a.seq ≠ b.seq) : es.foldl setBySeq m = m ++ es := by
  induction es generalizing m with
  | nil => rw [foldl_nil, append_nil]
  | cons e es ih =>
    have hnew : ∀ f ∈ m, f.seq ≠ e.seq := fun f hf => (pairwise_append.mp h).2.2 f hf e mem_cons_self
    rw [foldl_cons, setBySeq_of_new hnew, ih, append_assoc, singleton_append]
    rwa [append_assoc, singleton_append]

/-- `rows` are those of `m` and the first ones of `es` under each sequence that is not in `m`. -/
structure Merged (m es rows : List SwarmUIEvent) : Prop where
  nodup : rows.Pairwise fun a b => a.seq ≠ b.seq
  old : ∀ e ∈ m, e ∈ rows
  only : ∀ e ∈ rows, e ∈ m ∨ e ∈ es ∧ ∀ f ∈ m, f.seq ≠ e.seq
  new : ∀ e ∈ es, ∃ f ∈ rows, f.seq = e.seq

theorem foldl_addBySeq (h : m.Pairwise fun a b => a.seq ≠ b.seq) : Merged m es (es.foldl addBySeq m) := by
  induction es generalizing m with
  | nil => exact ⟨h, fun _ he => he, fun _ he => Or.inl he, by simp⟩
  | cons e es ih =>
    by_cases hany : ∃ f ∈ m, f.seq = e.seq
    · have hadd : addBySeq m e = m := by rw [addBySeq, if_pos (any_seq_iff.mpr hany)]
      rw [foldl_cons, hadd]
      obtain ⟨hnodup, hold, honly, hnew⟩ := ih h
      refine ⟨hnodup, hold, fun f hf => (honly f hf).imp_right fun hes => ⟨mem_cons_of_mem e hes.1, hes.2⟩, ?_⟩
      intro f hf
      obtain rfl | hf := mem_cons.mp hf
      · obtain ⟨g, hg, heq⟩ := hany
        exact ⟨g, hold g hg, heq⟩
      · exact hnew f hf
    · have hfresh : ∀ f ∈ m, f.seq ≠ e.seq := fun f hf heq => hany ⟨f, hf, heq⟩
      have hadd : addBySeq m e = m ++ [e] := by
        rw [addBySeq, if_neg fun htrue => hany (any_seq_iff.mp htrue), setBySeq_of_new hfresh]
      have hm : (m ++ [e]).Pairwise fun a b => a.seq ≠ b.seq := by
        refine pairwise_append.mpr ⟨h, pairwise_singleton _ e, fun f hf g hg => ?_⟩
        rw [mem_singleton.mp hg]
        exact hfresh f hf
      rw [foldl_cons, hadd]
      obtain ⟨hnodup, hold, honly, hnew⟩ := ih hm
      refine ⟨hnodup, fun f hf => hold f (mem_append_left [e] hf), fun f hf => ?_, fun f hf => ?_⟩
      · obtain hme | ⟨hes, hne⟩ := honly f hf
        · obtain hf | hf := mem_append.mp hme
          · exact Or.inl hf
          · rw [mem_singleton.mp hf]
            exact Or.inr ⟨mem_cons_self, hfresh⟩
        · exact Or.inr ⟨mem_cons_of_mem e hes, fun g hg => hne g (mem_append_left [e] hg)⟩
      · obtain rfl | hf := mem_cons.mp hf
        · exact ⟨f, hold f (mem_append_right m mem_cons_self), rfl⟩
        · exact hnew f hf

theorem mem_sortBySeq : e ∈ sortBySeq es ↔ e ∈ es := mem_insertionSort _

theorem sortBySeq_increasing (h : es.Pairwise fun a b => a.seq ≠ b.seq) :
    (sortBySeq es).Pairwise fun a b => a.seq < b.seq := by
  have hne : (sortBySeq es).Pairwise fun a b => a.seq ≠ b.seq :=
    (perm_insertionSort _ es).symm.pairwise h fun h => h.symm
  have hle : (sortBySeq es).Pairwise fun a b => a.seq ≤ b.seq := pairwise_insertionSort _ es
  exact hle.imp₂ (fun _ _ hle hne => Nat.lt_of_le_of_ne hle hne) hne

theorem Increasing.ne (h : es.Pairwise fun a b => a.seq < b.seq) : es.Pairwise fun a b => a.seq ≠ b.seq :=
  h.imp fun hlt => Nat.ne_of_lt hlt

theorem foldl_max_le {l : List Nat} : ∀ {n : Nat}, n ≤ l.foldl max n ∧ ∀ q ∈ l, q ≤ l.foldl max n := by
  induction l with
  | nil => simp
  | cons a l ih =>
    intro n
    obtain ⟨hn, hl⟩ := ih (n := max n a)
    refine ⟨(Nat.le_max_left n a).trans hn, fun q hq => ?_⟩
    obtain rfl | hq := mem_cons.mp hq
    · exact (Nat.le_max_right n q).trans hn
    · exact hl q hq

end Rows

namespace OfficeStore

/-- The rows stand in the order of their sequences, and the roster is that of the agents. -/
structure Kept (s : OfficeStore) : Prop where
  increasing : s.timeline.Pairwise fun a b => a.seq < b.seq
  seen : ∀ q, q ∈ s.seenSeq ↔ ∃ e ∈ s.timeline, e.seq = q
  last : ∀ e ∈ s.timeline, e.seq ≤ s.lastSeq
  roster : ∀ k, (s.agents k).isSome ↔ k ∈ s.agentOrder

variable {s : OfficeStore}

theorem Kept.merged (h : Kept s) (snap : OfficeSnapshot) :
    Merged s.timeline snap.timeline (snap.timeline.foldl addBySeq (s.timeline.foldl setBySeq [])) := by
  rw [foldl_setBySeq (by simpa using Increasing.ne h.increasing), nil_append]
  exact foldl_addBySeq (Increasing.ne h.increasing)

theorem recordOf_isSome (agents : List OfficeAgent) (k : String) :
    (recordOf agents k).isSome ↔ k ∈ agents.map (·.agentId) := by
  have hfold : ∀ record : Agents, ((agents.foldl (fun record a => fun k =>
      if k = a.agentId then some { a with waitingOn := some (a.waitingOn.getD []) } else record k) record) k).isSome ↔
        (record k).isSome ∨ k ∈ agents.map (·.agentId) := by
    induction agents with
    | nil => simp
    | cons a agents ih =>
      intro record
      rw [foldl_cons, ih, map_cons, mem_cons]
      by_cases hk : k = a.agentId <;> simp [hk]
  exact (hfold fun _ => none).trans (by simp)

theorem Kept.hydrate (h : Kept s) (snap : OfficeSnapshot) : Kept (s.hydrate snap) := by
  have hmerged := h.merged snap
  refine ⟨sortBySeq_increasing hmerged.nodup, fun q => by simp [OfficeStore.hydrate], fun e he => ?_, fun k => ?_⟩
  · exact foldl_max_le.2 e.seq (List.mem_map_of_mem he)
  · simp only [OfficeStore.hydrate]
    split
    · exact h.roster k
    · exact recordOf_isSome snap.agents k

theorem applyEventToAgents_isSome (agents : Agents) (ev : SwarmUIEvent) (k : String) :
    (applyEventToAgents agents ev k).isSome = (agents k).isSome := by
  rw [applyEventToAgents_apply, Option.isSome_map]

theorem not_seen (h : Kept s) {ev : SwarmUIEvent} (hnew : ev.seq ∉ s.seenSeq) :
    (s.timeline ++ [ev]).Pairwise fun a b => a.seq ≠ b.seq := by
  refine pairwise_append.mpr ⟨Increasing.ne h.increasing, pairwise_singleton _ ev, fun e he f hf heq => ?_⟩
  rw [mem_singleton.mp hf] at heq
  exact hnew ((h.seen ev.seq).mpr ⟨e, he, heq⟩)

theorem Kept.ingestEvent (h : Kept s) (ev : SwarmUIEvent) : Kept (s.ingestEvent ev) := by
  unfold OfficeStore.ingestEvent
  split
  · exact h
  · rename_i hnew
    refine ⟨sortBySeq_increasing (not_seen h hnew), fun q => ?_, fun e he => ?_, fun k => ?_⟩
    · simp only [Finset.mem_insert, h.seen, mem_sortBySeq, mem_append, mem_singleton]
      constructor
      · rintro (rfl | ⟨e, he, rfl⟩)
        · exact ⟨ev, Or.inr rfl, rfl⟩
        · exact ⟨e, Or.inl he, rfl⟩
      · rintro ⟨e, he | rfl, rfl⟩
        · exact Or.inr ⟨e, he, rfl⟩
        · exact Or.inl rfl
    · obtain he | he := mem_append.mp (mem_sortBySeq.mp he)
      · exact (h.last e he).trans (Nat.le_max_left ..)
      · rw [mem_singleton.mp he]
        exact Nat.le_max_right ..
    · rw [← h.roster k, applyEventToAgents_isSome]

theorem Kept.on (h : Kept s) (c : StoreCall) : Kept (c.on s) := by
  cases c with
  | ingestEvent ev => exact h.ingestEvent ev
  | hydrate snap => exact h.hydrate snap

theorem Kept.reset : Kept {} := ⟨.nil, by simp, by simp, by simp⟩

end OfficeStore

/-! Events that do not clash commute. -/

section Commutation
variable {roster : List String} {k : String} {c d : Change} {e f : SwarmUIEvent}

theorem named_present (hk : k ∈ roster) {i : Option String} (h : named i k) : Present roster i :=
  ⟨k, h.1, h.2, hk⟩

theorem Change.on_comm (hk : k ∈ roster) (h : ¬c.Clash roster d) (ts ts' : String) (a : OfficeAgent) :
    d.on ts' k (c.on ts k a) = c.on ts k (d.on ts' k a) := by
  cases c with
  | set i p =>
    by_cases hi : named i k
    · have hpresent := named_present hk hi
      cases d with
      | set j q =>
        have hj : ¬named j k := fun hj => h ⟨hi.1.trans hj.1.symm, hpresent⟩
        simp [Change.on, hi, hj]
      | uncrown =>
        have hlead : p.missionLead = false := by simpa [Change.Clash, hpresent] using h
        simp [Change.on, hi, Patch.on, hlead]
      | settle => exact absurd hpresent h
    · simp [Change.on, hi]
  | uncrown =>
    cases d with
    | set j q =>
      by_cases hj : named j k
      · have hlead : q.missionLead = false := by simpa [Change.Clash, named_present hk hj] using h
        simp [Change.on, hj, Patch.on, hlead]
      · simp [Change.on, hj]
    | uncrown => rfl
    | settle => by_cases hs : a.status.settles = true <;> simp [Change.on, hs]
  | settle =>
    cases d with
    | set j q =>
      by_cases hj : named j k
      · exact absurd (named_present hk hj) h
      · simp [Change.on, hj]
    | uncrown => by_cases hs : a.status.settles = true <;> simp [Change.on, hs]
    | settle => rfl

theorem SwarmUIEvent.onAgent_comm (hk : k ∈ roster) (h : ∀ c ∈ e.changes, ∀ d ∈ f.changes, ¬c.Clash roster d)
    (a : OfficeAgent) : f.onAgent k (e.onAgent k a) = e.onAgent k (f.onAgent k a) :=
  Reordering.foldl_comm (fun c hc d hd a => Change.on_comm hk (h c hc d hd) e.timestamp f.timestamp a) a

theorem SwarmUIEvent.Inert.onAgent (h : e.Inert roster) (hk : k ∈ roster) (a : OfficeAgent) : e.onAgent k a = a := by
  have hone : ∀ c ∈ e.changes, c.on e.timestamp k a = a := by
    intro c hc
    have hidle := h.1 c hc
    cases c with
    | set i p => exact if_neg fun hi => hidle (named_present hk hi)
    | uncrown | settle =>
      rw [show roster = [] from hidle] at hk
      cases hk
  unfold SwarmUIEvent.onAgent
  revert hone
  induction e.changes with
  | nil => exact fun _ => rfl
  | cons c cs ih =>
    intro hone
    rw [foldl_cons, hone c mem_cons_self]
    exact ih fun d hd => hone d (mem_cons_of_mem c hd)

end Commutation

/-- What the claims of the page rest on: the agents, the lead and the status. -/
@[ext] structure Shown where
  agents : Agents
  leadAgentId : Option String
  missionLead : Option String
  status : String

namespace Shown

def ingest (v : Shown) (e : SwarmUIEvent) : Shown where
  agents := applyEventToAgents v.agents e
  leadAgentId := e.crowned <|> v.leadAgentId
  missionLead := e.crowned.map withoutAgent <|> v.missionLead
  status := e.verdict.getD v.status

def patch (v : Shown) (snap : OfficeSnapshot) : Shown where
  agents := v.agents
  leadAgentId := snap.leadAgentId <|> v.leadAgentId
  missionLead := snap.missionLead <|> v.missionLead
  status := snap.status.getD v.status

def Of (roster : List String) (v : Shown) : Prop := ∀ k, (v.agents k).isSome ↔ k ∈ roster

variable {roster : List String} {v : Shown} {e f : SwarmUIEvent} {es : List SwarmUIEvent}

theorem Of.ingest (h : Of roster v) (e : SwarmUIEvent) : Of roster (v.ingest e) := fun k => by
  rw [← h k]
  simp only [Shown.ingest, OfficeStore.applyEventToAgents_isSome]

theorem orElse_comm {a b c : Option String} (h : ¬Opposed a b) : (b <|> a <|> c) = (a <|> b <|> c) := by
  cases a with
  | none => simp
  | some x =>
    cases b with
    | none => simp
    | some y =>
      have heq : x = y := by simpa [Opposed] using h
      rw [heq]

theorem ingest_commute (h : ¬e.Clash roster f) : Reordering.Commute Shown.ingest (Of roster) e f := by
  intro v hv
  simp only [SwarmUIEvent.Clash, not_or, not_exists, not_and] at h
  obtain ⟨hchanges, hcrowned, hverdict⟩ := h
  have hmissionLead : ¬Opposed (e.crowned.map withoutAgent) (f.crowned.map withoutAgent) := by
    cases he : e.crowned <;> cases hf : f.crowned <;> simp_all [Opposed]
  have hagents : applyEventToAgents (applyEventToAgents v.agents e) f =
      applyEventToAgents (applyEventToAgents v.agents f) e := by
    funext k
    simp only [applyEventToAgents_apply, Option.map_map]
    cases hk : v.agents k with
    | none => rfl
    | some a =>
      have hmem : k ∈ roster := (hv k).mp (by rw [hk]; rfl)
      exact congrArg some (SwarmUIEvent.onAgent_comm hmem hchanges a)
  have hstatus : f.verdict.getD (e.verdict.getD v.status) = e.verdict.getD (f.verdict.getD v.status) := by
    cases he : e.verdict <;> cases hf : f.verdict <;> simp_all [Opposed]
  simp only [Shown.ingest, hagents, orElse_comm hcrowned, orElse_comm hmissionLead, hstatus]

theorem ingest_inert (hv : Of roster v) (h : e.Inert roster) : v.ingest e = v := by
  have hagents : applyEventToAgents v.agents e = v.agents := by
    funext k
    rw [applyEventToAgents_apply]
    cases hk : v.agents k with
    | none => rfl
    | some a => exact congrArg some (h.onAgent ((hv k).mp (by rw [hk]; rfl)) a)
  simp [Shown.ingest, hagents, h.2.1, h.2.2]

theorem foldl_ingest (es : List SwarmUIEvent) : ∀ v : Shown, (es.foldl ingest v).agents = es.foldl applyEventToAgents v.agents ∧
    (es.foldl ingest v).leadAgentId = Reordering.written (fun e => e.crowned.map some) v.leadAgentId es ∧
    (es.foldl ingest v).missionLead = Reordering.written (fun e => e.crowned.map (some ∘ withoutAgent)) v.missionLead es ∧
    (es.foldl ingest v).status = Reordering.written SwarmUIEvent.verdict v.status es := by
  induction es with
  | nil => exact fun _ => ⟨rfl, rfl, rfl, rfl⟩
  | cons e es ih =>
    intro v
    obtain ⟨hagents, hlead, hmission, hstatus⟩ := ih (v.ingest e)
    refine ⟨hagents, hlead.trans ?_, hmission.trans ?_, hstatus⟩
    · cases h : e.crowned <;> simp [Reordering.written, Shown.ingest, h]
    · cases h : e.crowned <;> simp [Reordering.written, Shown.ingest, h]

theorem patch_foldl {snap : OfficeSnapshot}
    (hlead : (∀ e ∈ es, e.crowned = none) ∨ (∀ l ∈ snap.leadAgentId, (es.foldl ingest v).leadAgentId = some l) ∧
      ∀ l ∈ snap.missionLead, (es.foldl ingest v).missionLead = some l)
    (hstatus : (∀ e ∈ es, e.verdict = none) ∨ ∀ l ∈ snap.status, (es.foldl ingest v).status = l) :
    (es.foldl ingest v).patch snap = es.foldl ingest (v.patch snap) := by
  obtain ⟨hagents, hleadEq, hmissionEq, hstatusEq⟩ := foldl_ingest es v
  obtain ⟨hagents', hleadEq', hmissionEq', hstatusEq'⟩ := foldl_ingest es (v.patch snap)
  have hcrowned {β : Type} (g : String → β) (hnone : ∀ e ∈ es, e.crowned = none) :
      ∀ e ∈ es, e.crowned.map g = none := fun e he => by rw [hnone e he, Option.map_none]
  have hfirst := Reordering.written_pass (fun e : SwarmUIEvent => e.crowned.map some) es
    (snap.leadAgentId.map some) v.leadAgentId <| hlead.imp (hcrowned some) fun h l hl => by
      obtain ⟨id, hid, rfl⟩ := Option.mem_map.mp hl
      rw [← hleadEq, h.1 id hid]
  have hsecond := Reordering.written_pass (fun e : SwarmUIEvent => e.crowned.map (some ∘ withoutAgent)) es
    (snap.missionLead.map some) v.missionLead <|
      hlead.imp (hcrowned (some ∘ withoutAgent)) fun h l hl => by
        obtain ⟨id, hid, rfl⟩ := Option.mem_map.mp hl
        rw [← hmissionEq, h.2 id hid]
  have hthird := Reordering.written_pass SwarmUIEvent.verdict es snap.status v.status <|
    hstatus.imp_right fun h l hl => by rw [← hstatusEq, h l hl]
  have hor (a b : Option String) : (a.map some).getD b = (a <|> b) := by cases a <;> rfl
  rw [hor, hor] at hfirst hsecond
  refine Shown.ext (hagents.trans hagents'.symm) ?_ ?_ ?_
  · exact (congrArg (snap.leadAgentId <|> ·) hleadEq).trans (hfirst.trans hleadEq'.symm)
  · exact (congrArg (snap.missionLead <|> ·) hmissionEq).trans (hsecond.trans hmissionEq'.symm)
  · exact (congrArg snap.status.getD hstatusEq).trans (hthird.trans hstatusEq'.symm)

end Shown

def StoreCall.patched (v : Shown) : StoreCall → Shown
  | .ingestEvent _ => v
  | .hydrate snap => v.patch snap

namespace OfficeStore
variable {s : OfficeStore} {e f : SwarmUIEvent} {events : List SwarmUIEvent} {c : StoreCall}

def shown (s : OfficeStore) : Shown := ⟨s.agents, s.leadAgentId, s.missionLead, s.status⟩

theorem shown_ingestEvent (hnew : e.seq ∉ s.seenSeq) : (s.ingestEvent e).shown = s.shown.ingest e := by
  rw [OfficeStore.ingestEvent, if_neg hnew]
  rfl

theorem shown_hydrate {snap : OfficeSnapshot} (hlevel : snap.agents = []) :
    (s.hydrate snap).shown = s.shown.patch snap := by
  simp only [OfficeStore.shown, OfficeStore.hydrate, if_pos hlevel]
  rfl

/-! The rows are the events delivered. -/

theorem mem_ingestEvent (hnew : e.seq ∉ s.seenSeq) : f ∈ (s.ingestEvent e).timeline ↔ f ∈ s.timeline ∨ f = e := by
  rw [OfficeStore.ingestEvent, if_neg hnew]
  simp only [mem_sortBySeq, mem_append, mem_singleton]

/-- A row under the sequence of one of the events is that event. -/
def Known (events : List SwarmUIEvent) (s : OfficeStore) : Prop :=
  ∀ e ∈ s.timeline, ∀ f ∈ events, e.seq = f.seq → e = f

theorem increasing_inj (h : events.Pairwise fun a b => a.seq < b.seq) (he : e ∈ events) (hf : f ∈ events)
    (heq : e.seq = f.seq) : e = f := by
  have hright : events.Pairwise fun a b => a.seq = b.seq → a = b :=
    h.imp fun hlt heq => absurd heq (Nat.ne_of_lt hlt)
  have hleft : events.Pairwise fun a b => b.seq = a.seq → b = a :=
    h.imp fun hlt heq => absurd heq.symm (Nat.ne_of_lt hlt)
  exact hright.forall_of_forall_of_flip (fun _ _ _ => rfl) hleft he hf heq

section
variable (h : Kept s) (hknown : s.Known events) (hseq : events.Pairwise fun a b => a.seq < b.seq)
  (hc : ∀ e ∈ c.events, e ∈ events)
include h hknown hseq hc

theorem mem_on : f ∈ (c.on s).timeline ↔ f ∈ s.timeline ∨ f ∈ c.events := by
  cases c with
  | ingestEvent e =>
    rw [StoreCall.events, mem_singleton]
    by_cases hseen : e.seq ∈ s.seenSeq
    · have hmem : e ∈ s.timeline := by
        obtain ⟨g, hg, heq⟩ := (h.seen e.seq).mp hseen
        rwa [← hknown g hg e (hc e mem_cons_self) heq]
      have hsame : StoreCall.on s (.ingestEvent e) = s := if_pos hseen
      rw [hsame]
      exact ⟨Or.inl, fun hf => hf.elim id fun heq => heq ▸ hmem⟩
    · exact mem_ingestEvent hseen
  | hydrate snap =>
    have hmerged := h.merged snap
    refine Iff.trans mem_sortBySeq ⟨fun hf => (hmerged.only f hf).imp_right And.left, ?_⟩
    rintro (hf | hf)
    · exact hmerged.old f hf
    · obtain ⟨g, hg, heq⟩ := hmerged.new f hf
      obtain hold | hnew := hmerged.only g hg
      · rwa [← hknown g hold f (hc f hf) heq]
      · rwa [← increasing_inj hseq (hc g hnew.1) (hc f hf) heq]

theorem Known.on : (c.on s).Known events := by
  intro e he f hf heq
  obtain he | he := (mem_on h hknown hseq hc).mp he
  · exact hknown e he f hf heq
  · exact increasing_inj hseq (hc e he) hf heq

end

theorem run_rows (hseq : events.Pairwise fun a b => a.seq < b.seq) (calls : List StoreCall) :
    ∀ s : OfficeStore, Kept s → s.Known events → (∀ c ∈ calls, ∀ e ∈ c.events, e ∈ events) →
      Kept (calls.foldl StoreCall.on s) ∧
        ∀ f, f ∈ (calls.foldl StoreCall.on s).timeline ↔ f ∈ s.timeline ∨ ∃ c ∈ calls, f ∈ c.events := by
  induction calls with
  | nil => exact fun s h _ _ => ⟨h, by simp⟩
  | cons c calls ih =>
    intro s h hknown hevents
    have hc := hevents c mem_cons_self
    obtain ⟨hkept, hrows⟩ := ih (c.on s) (h.on c) (hknown.on h hseq hc)
      fun c' hc' => hevents c' (mem_cons_of_mem c hc')
    refine ⟨hkept, fun f => ?_⟩
    rw [foldl_cons, hrows f, mem_on h hknown hseq hc]
    simp [or_assoc]

/-! What is shown is the fold of the events in order. -/

/-- `es` are the events folded, in the order in which they have come. -/
structure Tracked (base : List SwarmUIEvent) (roster : List String) (start : Shown) (s : OfficeStore)
    (es : List SwarmUIEvent) : Prop where
  order : s.agentOrder = roster
  starting : start.Of roster
  rows : ∀ e ∈ base, e ∈ s.timeline
  shown : s.shown = es.foldl Shown.ingest start
  fresh : ∀ e ∈ es, e ∈ s.timeline ∧ e ∉ base
  rest : ∀ e ∈ s.timeline, e ∉ base → e ∈ es ∨ e.Inert roster
  nodup : es.Nodup
  ordered : es.Pairwise fun f e => e.seq < f.seq → ¬e.Clash roster f

variable {base es : List SwarmUIEvent} {roster : List String} {start : Shown}

section
variable (h : Tracked base roster start s es) (hkept : Kept s)
include h hkept

theorem Tracked.ingestEvent (hsound : Sound base s (.ingestEvent e)) :
    ∃ es, Tracked base roster start (s.ingestEvent e) es := by
  by_cases hseen : e.seq ∈ s.seenSeq
  · have hsame : s.ingestEvent e = s := if_pos hseen
    exact ⟨es, hsame.symm ▸ h⟩
  · have hnew : e ∉ s.timeline := fun he => hseen ((hkept.seen e.seq).mpr ⟨e, he, rfl⟩)
    refine ⟨es ++ [e], ?_, h.starting, fun f hf => (mem_ingestEvent hseen).mpr (Or.inl (h.rows f hf)), ?_, ?_, ?_, ?_, ?_⟩
    · rw [OfficeStore.ingestEvent, if_neg hseen]
      exact h.order
    · rw [shown_ingestEvent hseen, h.shown, foldl_concat]
    · intro f hf
      obtain hf | hf := mem_append.mp hf
      · exact ⟨(mem_ingestEvent hseen).mpr (Or.inl (h.fresh f hf).1), (h.fresh f hf).2⟩
      · rw [mem_singleton.mp hf]
        exact ⟨(mem_ingestEvent hseen).mpr (Or.inr rfl), fun hbase => hnew (h.rows e hbase)⟩
    · intro f hf hbase
      obtain hf | rfl := (mem_ingestEvent hseen).mp hf
      · exact (h.rest f hf hbase).imp_left fun hes => mem_append_left [e] hes
      · exact Or.inl (mem_append_right es mem_cons_self)
    · refine nodup_append.mpr ⟨h.nodup, nodup_singleton e, fun f hf g hg heq => ?_⟩
      rw [heq, mem_singleton.mp hg] at hf
      exact hnew (h.fresh e hf).1
    · refine pairwise_append.mpr ⟨h.ordered, pairwise_singleton _ e, fun f hf g hg hlt => ?_⟩
      rw [mem_singleton.mp hg] at hlt ⊢
      rw [← h.order]
      exact hsound hseen f (h.fresh f hf).1 (h.fresh f hf).2 hlt

theorem Tracked.hydrate {snap : OfficeSnapshot} (hlevel : snap.agents = []) (hsound : Sound base s (.hydrate snap)) :
    Tracked base roster (start.patch snap) (s.hydrate snap) es := by
  have hmerged := hkept.merged snap
  obtain ⟨hinert, hlead, hstatus⟩ := hsound
  refine ⟨?_, h.starting, ?_, ?_, ?_, ?_, h.nodup, h.ordered⟩
  · simp only [OfficeStore.hydrate, if_pos hlevel]
    exact h.order
  · exact fun e he => mem_sortBySeq.mpr (hmerged.old e (h.rows e he))
  · rw [shown_hydrate hlevel, h.shown]
    refine Shown.patch_foldl ?_ ?_
    · rw [← h.shown]
      exact hlead.imp_left fun hnone e he => hnone e (h.fresh e he).1 (h.fresh e he).2
    · rw [← h.shown]
      exact hstatus.imp_left fun hnone e he => hnone e (h.fresh e he).1 (h.fresh e he).2
  · exact fun e he => ⟨mem_sortBySeq.mpr (hmerged.old e (h.fresh e he).1), (h.fresh e he).2⟩
  · intro e he hbase
    obtain hold | ⟨hnew, hne⟩ := hmerged.only e (mem_sortBySeq.mp he)
    · exact h.rest e hold hbase
    · refine Or.inr (h.order ▸ hinert e hnew fun hseen => ?_)
      obtain ⟨f, hf, heq⟩ := (hkept.seen e.seq).mp hseen
      exact hne f hf heq

theorem Tracked.on (hlevel : c.MissionLevel) (hsound : Sound base s c) :
    ∃ es, Tracked base roster (c.patched start) (c.on s) es := by
  cases c with
  | ingestEvent e => exact h.ingestEvent hkept hsound
  | hydrate snap => exact ⟨es, h.hydrate hkept hlevel hsound⟩

end

def step (s : OfficeStore) (c : StoreCall) : Option OfficeStore := some (c.on s)

theorem Tracked.run (calls : List StoreCall) : ∀ {s : OfficeStore} {start : Shown} {es : List SwarmUIEvent},
    Tracked base roster start s es → Kept s → (∀ c ∈ calls, c.MissionLevel) →
      Machine.Along step (Sound base) s calls →
      ∃ es, Tracked base roster (calls.foldl StoreCall.patched start) (calls.foldl StoreCall.on s) es := by
  induction calls with
  | nil => exact fun h _ _ _ => ⟨_, h⟩
  | cons c calls ih =>
    intro s start es h hkept hlevel hsound
    obtain ⟨es', h'⟩ := h.on hkept (hlevel c mem_cons_self) hsound.1
    exact ih h' (hkept.on c) (fun c' hc' => hlevel c' (mem_cons_of_mem c hc')) (hsound.2 (c.on s) rfl)

theorem Tracked.shown_eq (h : Tracked base roster start s es) (hkept : Kept s) :
    s.shown = (s.timeline.filter (· ∉ base)).foldl Shown.ingest start := by
  have hI : ∀ v e, Shown.Of roster v → Shown.Of roster (v.ingest e) := fun _ e hv => hv.ingest e
  have hinert : ∀ ts : List SwarmUIEvent, (∀ e ∈ ts, e ∈ es ∨ e.Inert roster) → ∀ v, Shown.Of roster v →
      ts.foldl Shown.ingest v = (ts.filter (· ∈ es)).foldl Shown.ingest v := by
    intro ts
    induction ts with
    | nil => exact fun _ _ _ => rfl
    | cons e ts ih =>
      intro hts v hv
      have hrest := ih fun f hf => hts f (mem_cons_of_mem e hf)
      by_cases he : e ∈ es
      · rw [filter_cons_of_pos (by simpa using he), foldl_cons, foldl_cons, hrest _ (hv.ingest e)]
      · rw [filter_cons_of_neg (by simpa using he), foldl_cons,
          Shown.ingest_inert hv ((hts e mem_cons_self).resolve_left he), hrest v hv]
  have hincreasing : ((s.timeline.filter (· ∉ base)).filter (· ∈ es)).Pairwise fun a b => a.seq < b.seq :=
    (hkept.increasing.filter _).filter _
  have hnodup := (Increasing.ne hincreasing).imp fun hne heq => hne (congrArg SwarmUIEvent.seq heq)
  have hperm : es.Perm ((s.timeline.filter (· ∉ base)).filter (· ∈ es)) := by
    refine (perm_ext_iff_of_nodup h.nodup hnodup).mpr fun e => ?_
    simp only [mem_filter, decide_eq_true_eq]
    exact ⟨fun he => ⟨h.fresh e he, he⟩, And.right⟩
  have hcommute : es.Pairwise fun f e => e.seq < f.seq → Reordering.Commute Shown.ingest (Shown.Of roster) e f :=
    h.ordered.imp fun hclash hlt => Shown.ingest_commute (hclash hlt)
  rw [h.shown, hinert (s.timeline.filter (· ∉ base)) (fun e he => ?_) start h.starting]
  · exact Reordering.foldl_eq_of_sorted hI h.starting hperm hincreasing hcommute
  · have hmem := mem_filter.mp he
    exact h.rest e hmem.1 (by simpa using hmem.2)

/-! The events delivered in order. -/

theorem along_increasing (ts : List SwarmUIEvent) : ∀ s : OfficeStore, ts.Pairwise (fun a b => a.seq < b.seq) →
    (∀ f ∈ s.timeline, f ∉ base → ∀ e ∈ ts, f.seq < e.seq) →
      Machine.Along step (Sound base) s (ts.map .ingestEvent) := by
  induction ts with
  | nil => exact fun _ _ _ => trivial
  | cons e ts ih =>
    intro s hts hbehind
    obtain ⟨hlater, hts⟩ := pairwise_cons.mp hts
    refine ⟨fun _ f hf hbase hlt => ?_, fun s' hs' => ?_⟩
    · exact absurd hlt (Nat.lt_asymm (hbehind f hf hbase e mem_cons_self))
    · obtain rfl := Option.some.inj hs'
      refine ih _ hts fun f hf hbase g hg => ?_
      have hrows : f ∈ s.timeline ∨ f = e := by
        by_cases hseen : e.seq ∈ s.seenSeq
        · have hsame : StoreCall.on s (.ingestEvent e) = s := if_pos hseen
          rw [hsame] at hf
          exact Or.inl hf
        · exact (mem_ingestEvent hseen).mp hf
      obtain hf | rfl := hrows
      · exact hbehind f hf hbase g (mem_cons_of_mem e hg)
      · exact hlater g hg

theorem along_inOrder {ts : List SwarmUIEvent} (hts : ts.Pairwise fun a b => a.seq < b.seq) (calls : List StoreCall) :
    ∀ s : OfficeStore, Kept s → (∀ e ∈ s.timeline, e ∈ base) → Machine.Along step (Sound base) s (inOrder calls ts) := by
  induction calls with
  | nil =>
    intro s _ hbase
    exact along_increasing ts s hts fun f hf hnot => absurd (hbase f hf) hnot
  | cons c calls ih =>
    intro s hkept hbase
    cases c with
    | ingestEvent e => exact ih s hkept hbase
    | hydrate snap =>
      refine ⟨⟨by simp, Or.inl fun e he hnot => absurd (hbase e he) hnot,
        Or.inl fun e he hnot => absurd (hbase e he) hnot⟩, fun s' hs' => ?_⟩
      obtain rfl := Option.some.inj hs'
      refine ih _ (hkept.hydrate _) fun e he => ?_
      obtain hold | ⟨hnew, -⟩ := (hkept.merged _).only e (mem_sortBySeq.mp he)
      · exact hbase e hold
      · cases hnew

theorem patched_inOrder (ts : List SwarmUIEvent) (calls : List StoreCall) : ∀ v : Shown,
    (inOrder calls ts).foldl StoreCall.patched v = calls.foldl StoreCall.patched v := by
  induction calls with
  | nil =>
    intro v
    have hts : ∀ ts : List SwarmUIEvent, (ts.map StoreCall.ingestEvent).foldl StoreCall.patched v = v := by
      intro ts
      induction ts with
      | nil => rfl
      | cons e ts ih => exact ih
    exact hts ts
  | cons c calls ih =>
    intro v
    cases c with
    | ingestEvent e => exact ih v
    | hydrate snap => exact ih (v.patch snap)

theorem inOrder_missionLevel {ts : List SwarmUIEvent} {calls : List StoreCall} (h : ∀ c ∈ calls, c.MissionLevel) :
    ∀ c ∈ inOrder calls ts, c.MissionLevel := by
  intro c hc
  obtain hc | hc := mem_append.mp hc
  · obtain ⟨c', hc', hbare⟩ := mem_filterMap.mp hc
    cases c' with
    | ingestEvent e => cases hbare
    | hydrate snap =>
      obtain rfl := Option.some.inj hbare
      exact h (.hydrate snap) hc'
  · obtain ⟨e, -, rfl⟩ := List.mem_map.mp hc
    trivial

theorem mem_events_inOrder {ts : List SwarmUIEvent} {calls : List StoreCall} :
    (∃ c ∈ inOrder calls ts, f ∈ c.events) ↔ f ∈ ts := by
  constructor
  · rintro ⟨c, hc, hf⟩
    obtain hc | hc := mem_append.mp hc
    · obtain ⟨c', -, hbare⟩ := mem_filterMap.mp hc
      cases c' with
      | ingestEvent e => cases hbare
      | hydrate snap =>
        obtain rfl := Option.some.inj hbare
        cases hf
    · obtain ⟨e, he, rfl⟩ := List.mem_map.mp hc
      rwa [mem_singleton.mp hf]
  · exact fun hf => ⟨.ingestEvent f, mem_append_right _ (List.mem_map_of_mem hf), mem_cons_self⟩

/-- However the events arrive, their rows stand in order and once; and if each one comes behind no later
event that it clashes with, the page shows what it shows when they arrive in order. -/
theorem deliveries_ordered (snap : OfficeSnapshot) (events : List SwarmUIEvent)
    (hseq : events.Pairwise fun a b => a.seq < b.seq)
    (hsnap : ∀ e ∈ snap.timeline, ∀ f ∈ events, e.seq = f.seq → e = f) (calls : List StoreCall)
    (hlevel : ∀ c ∈ calls, c.MissionLevel) (hevents : ∀ c ∈ calls, ∀ e ∈ c.events, e ∈ events) :
    let start := OfficeStore.hydrate {} snap
    let s := calls.foldl StoreCall.on start
    s.timeline.Pairwise (fun a b => a.seq < b.seq) ∧
      (∀ e, e ∈ s.timeline ↔ e ∈ start.timeline ∨ ∃ c ∈ calls, e ∈ c.events) ∧
      (∀ q, q ∈ s.seenSeq ↔ ∃ e ∈ s.timeline, e.seq = q) ∧ (∀ e ∈ s.timeline, e.seq ≤ s.lastSeq) ∧
      (∀ e ∈ s.timeline, s.ingestEvent e = s) ∧
      ((∀ e ∈ events, ∃ c ∈ calls, e ∈ c.events) → Machine.Along step (Sound start.timeline) start calls →
        let t := (inOrder calls events).foldl StoreCall.on start
        s.timeline = t.timeline ∧ s.agents = t.agents ∧ s.leadAgentId = t.leadAgentId ∧
          s.missionLead = t.missionLead ∧ s.status = t.status) := by
  intro start s
  have hstart : Kept start := Kept.reset.hydrate snap
  have hknown : start.Known events := fun e he => by
    obtain hold | hnew := (Kept.reset.merged snap).only e (mem_sortBySeq.mp he)
    · cases hold
    · exact hsnap e hnew.1
  obtain ⟨hkept, hrows⟩ := run_rows hseq calls start hstart hknown hevents
  refine ⟨hkept.increasing, hrows, hkept.seen, hkept.last, fun e he => ?_, fun hall hsound => ?_⟩
  · exact if_pos ((hkept.seen e.seq).mpr ⟨e, he, rfl⟩)
  · have htracked : Tracked start.timeline start.agentOrder start.shown start [] :=
      ⟨rfl, hstart.roster, fun _ he => he, rfl, by simp, fun e he hnot => absurd he hnot, .nil, .nil⟩
    have hsame : ∀ f, (∃ c ∈ inOrder calls events, f ∈ c.events) ↔ ∃ c ∈ calls, f ∈ c.events := fun f =>
      mem_events_inOrder.trans ⟨hall f, fun ⟨c, hc, hf⟩ => hevents c hc f hf⟩
    obtain ⟨es, hes⟩ := htracked.run calls hstart hlevel hsound
    obtain ⟨ts, hts⟩ := htracked.run (inOrder calls events) hstart (inOrder_missionLevel hlevel)
      (along_inOrder hseq calls start hstart fun _ he => he)
    obtain ⟨hkept', hrows'⟩ := run_rows hseq (inOrder calls events) start hstart hknown
      fun c hc e he => mem_events_inOrder.mp ⟨c, hc, he⟩
    have htimeline := hkept.increasing.eq_of_mem_iff hkept'.increasing fun e => by
      rw [hrows e, hrows' e, hsame e]
    have hshown := hts.shown_eq hkept'
    rw [patched_inOrder, ← htimeline, ← hes.shown_eq hkept] at hshown
    exact ⟨htimeline, (congrArg Shown.agents hshown).symm, (congrArg Shown.leadAgentId hshown).symm,
      (congrArg Shown.missionLead hshown).symm, (congrArg Shown.status hshown).symm⟩

def startingSnapshot : OfficeSnapshot where
  status := some "running"
  agents := ["coordinator", "skeptic_agent", "funnel_agent"].map ({ agentId := · })

def reviewStarted : SwarmUIEvent where
  seq := 1
  timestamp := "10:00"
  eventType := "skeptic_review_started"

def tasksCreated : SwarmUIEvent where
  seq := 2
  timestamp := "10:01"
  eventType := "task_created"

def transferred (seq : Nat) (id : String) : SwarmUIEvent where
  seq := seq
  timestamp := "10:02"
  agentId := some id
  eventType := "leadership_transferred"

/-- Two events on different agents the other way round, a snapshot of the mission, and one event again. -/
def lateReview : List StoreCall :=
  [.ingestEvent tasksCreated, .hydrate { status := some "running", timeline := [tasksCreated] },
    .ingestEvent reviewStarted, .ingestEvent tasksCreated]

theorem deliveries_ordered_lateReview :
    let start := OfficeStore.hydrate {} startingSnapshot
    let s := lateReview.foldl StoreCall.on start
    let t := (inOrder lateReview [reviewStarted, tasksCreated]).foldl StoreCall.on start
    s.timeline.Pairwise (fun a b => a.seq < b.seq) ∧ (∀ e ∈ s.timeline, s.ingestEvent e = s) ∧
      s.timeline = t.timeline ∧ s.agents = t.agents ∧ s.leadAgentId = t.leadAgentId ∧
        s.missionLead = t.missionLead ∧ s.status = t.status := by
  have h := deliveries_ordered startingSnapshot [reviewStarted, tasksCreated] (by decide) (by decide)
    lateReview (by simp [lateReview, StoreCall.MissionLevel]) (by decide)
  exact ⟨h.1, h.2.2.2.2.1, h.2.2.2.2.2 (by decide) (by decide)⟩

/-- Two transfers the other way round; and an event that a snapshot of the mission has brought. -/
theorem deliveries_disordered :
    let start := OfficeStore.hydrate {} startingSnapshot
    let early := StoreCall.ingestEvent (transferred 3 "skeptic_agent")
    let late := StoreCall.ingestEvent (transferred 4 "funnel_agent")
    let brought := StoreCall.hydrate { status := some "running", timeline := [reviewStarted] }
    let review := StoreCall.ingestEvent reviewStarted
    ([late, early].foldl StoreCall.on start).leadAgentId = some "skeptic_agent" ∧
      ([early, late].foldl StoreCall.on start).leadAgentId = some "funnel_agent" ∧
      (([late, early].foldl StoreCall.on start).agents "funnel_agent").map (·.missionLead) = some false ∧
      (([early, late].foldl StoreCall.on start).agents "funnel_agent").map (·.missionLead) = some true ∧
      (([brought, review].foldl StoreCall.on start).agents "skeptic_agent").map (·.status) = some .idle ∧
      (([review, brought].foldl StoreCall.on start).agents "skeptic_agent").map (·.status) = some .reviewing := by
  decide

end OfficeStore
end SelericSwarm.Office
