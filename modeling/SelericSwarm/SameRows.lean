import SelericSwarm.RepositoryCalls

/-! When the rows of the Postgres run repository hold what the in-memory one
holds, and that an event filed in both leaves them so. -/
namespace SelericSwarm
open Keyed RunRepository List Option

/-- Each run's rows are its event list, and an id that ends a run is used for that run only. -/
structure SameEvents (s : RunRepository) (t : RunEvents) : Prop where
  lists : ∀ r, t.ofRun (some r) = s.eventsOf r
  filed : ∀ row ∈ t.table.rows, row.runId.isSome
  last : ∀ r, ∀ e ∈ s.eventsOf r, e.sequence ≤ lastSequence (s.eventsOf r)
  owned : ∀ row ∈ t.table.rows, ∀ hex, TerminalEventId (newId "run" hex) row.id →
    row.runId = some (newId "run" hex)

/-- A submission is published in both or in neither. -/
def SameOutbox (outbox : Dict String Bool) (rows : Table OutboxRow.runId) : Prop :=
  ∀ r, (rows.get? r).map (·.publishedAt.isSome) = outbox.get? r

structure Refines (s : RunRepository) (db : PostgresRunRepository) : Prop where
  runs : db.runs = s.items
  attempts : db.runAttempts = s.attempts
  events : SameEvents s db.runEvents
  outbox : SameOutbox s.outbox db.submissionOutbox

section Events
variable {s : RunRepository} {t : RunEvents} {r : String} {event : ActivityEvent}

theorem SameEvents.mem_iff (h : SameEvents s t) {row : ActivityEvent} :
    row ∈ s.eventsOf r ↔ row ∈ t.table.rows ∧ row.runId = some r := by
  rw [← h.lists, RunEvents.ofRun, mem_filter]
  constructor
  · intro hrow
    exact ⟨hrow.1, by simpa using And.right (by simpa using hrow.2)⟩
  · intro hrow
    exact ⟨hrow.1, by simp [hrow.2]⟩

theorem SameEvents.congr (h : SameEvents s t) {s' : RunRepository}
    (he : ∀ r, s'.eventsOf r = s.eventsOf r) : SameEvents s' t where
  lists r := (h.lists r).trans (he r).symm
  filed := h.filed
  last r := by
    rw [he r]
    exact h.last r
  owned := h.owned

theorem SameEvents.empty : SameEvents {} .empty where
  lists _ := rfl
  filed := by simp [RunEvents.empty]
  last _ := by simp [eventsOf, Dict.getD]
  owned := by simp [RunEvents.empty]

theorem SameEvents.mem_flatten (h : SameEvents s t) {row : ActivityEvent} :
    row ∈ s.events.values.flatten ↔ row ∈ t.table.rows := by
  rw [Dict.mem_values_flatten]
  constructor
  · intro hrow
    obtain ⟨r, hr⟩ := hrow
    exact (h.mem_iff.mp hr).1
  · intro hrow
    obtain ⟨r, hr⟩ := isSome_iff_exists.mp (h.filed row hrow)
    exact ⟨r, h.mem_iff.mpr ⟨hrow, hr⟩⟩

theorem coalesceMax_eq_lastSequence {events : List ActivityEvent}
    (h : ∀ e ∈ events, e.sequence ≤ lastSequence events) :
    coalesceMax (events.map (·.sequence)) = lastSequence events := by
  refine Nat.le_antisymm (coalesceMax_le (by simpa using h)) ?_
  rw [lastSequence]
  cases hl : events.getLast? with
  | none => exact Nat.zero_le _
  | some e => exact le_coalesceMax (List.mem_map_of_mem (mem_of_getLast? hl))

theorem SameEvents.numbered_eq (h : SameEvents s t) (hr : event.runId = some r) :
    t.numbered event = s.numbered (s.eventsOf r) event := by
  have hsequence : coalesceMax ((t.ofRun event.runId).map (·.sequence)) = lastSequence (s.eventsOf r) := by
    rw [hr, h.lists, coalesceMax_eq_lastSequence (h.last r)]
  have hthread : coalesceMax ((t.ofThread event.threadId).map (·.threadSequence)) =
      s.lastThreadSequence event.threadId := by
    rw [lastThreadSequence, foldl_max_eq_coalesceMax]
    apply coalesceMax_congr
    intro n
    simp only [RunEvents.ofThread, List.mem_map, mem_filter, h.mem_flatten]
  rw [RunEvents.numbered, RunRepository.numbered, hsequence, hthread]

theorem SameEvents.added (h : SameEvents s t) (hr : event.runId = some r)
    (new : t.table.get? event.id = none)
    (howned : ∀ hex, TerminalEventId (newId "run" hex) event.id → r = newId "run" hex)
    {s' : RunRepository}
    (hs' : s'.events = s.events.set r (s.eventsOf r ++ [s.numbered (s.eventsOf r) event])) :
    SameEvents s' (t.add event new) := by
  have hrows : (t.add event new).table.rows = t.table.rows ++ [t.numbered event] :=
    Table.put_rows_of_none new
  have hrun : (t.numbered event).runId = some r := hr
  have hevents : ∀ r', s'.eventsOf r' =
      if r = r' then s.eventsOf r ++ [s.numbered (s.eventsOf r) event] else s.eventsOf r' := by
    intro r'
    rw [eventsOf, hs', Dict.getD_set]
    rfl
  constructor
  · intro r'
    rw [RunEvents.ofRun, hrows, filter_append, hevents]
    have hold : t.table.rows.filter (fun row => row.runId.isSome && row.runId = some r') = s.eventsOf r' :=
      h.lists r'
    rw [hold]
    by_cases hrr : r = r'
    · subst hrr
      simp [hrun, ← h.numbered_eq hr]
    · simp [hrun, hrr]
  · intro row hrow
    rw [hrows] at hrow
    obtain hrow | hrow := mem_append.mp hrow
    · exact h.filed row hrow
    · rw [mem_singleton.mp hrow, hrun]
      rfl
  · intro r' e he
    rw [hevents] at he ⊢
    split at he
    next hrr =>
      rw [if_pos hrr]
      have hlast : lastSequence (s.eventsOf r ++ [s.numbered (s.eventsOf r) event]) =
          lastSequence (s.eventsOf r) + 1 := by
        simp [lastSequence, numbered]
      rw [hlast]
      obtain he | he := mem_append.mp he
      · have := h.last r e he
        omega
      · rw [mem_singleton.mp he]
        exact Nat.le_refl _
    next hrr =>
      rw [if_neg hrr]
      exact h.last r' e he
  · intro row hrow hex hid
    rw [hrows] at hrow
    obtain hrow | hrow := mem_append.mp hrow
    · exact h.owned row hrow hex hid
    · obtain rfl := mem_singleton.mp hrow
      rw [hrun, howned hex hid]

variable {run : Run}

section
variable (h : SameEvents s t) (hs : s.Regular) (hrun : s.items.get? r = some run)
include h hs hrun

theorem SameEvents.ended (he : Stores.EndsRun r event) (new : t.table.get? event.id = none) {s' : RunRepository}
    (hs' : s'.events = s.events.set r (s.eventsOf r ++ [s.numbered (s.eventsOf r) event])) :
    SameEvents s' (t.add event new) := by
  refine h.added he.1 new ?_ hs'
  intro hex hid
  obtain ⟨hex', rfl⟩ := hs.generated r (by rw [hrun]; rfl)
  exact he.2.run_eq hid

end

section
variable (hs : s.Regular) (hrun : s.items.get? r = some run) (hu : run.status.terminal = false)
include hs hrun hu

end

end Events

section Outbox
variable {outbox : Dict String Bool} {rows : Table OutboxRow.runId}

theorem SameOutbox.empty : SameOutbox .empty .empty := fun _ => rfl

theorem SameOutbox.put (h : SameOutbox outbox rows) {row : OutboxRow} {published : Bool}
    (hp : row.publishedAt.isSome = published) : SameOutbox (outbox.set row.runId published) (rows.put row) := by
  intro r
  rw [Table.get?_put, Dict.get?_set]
  split
  next => simp [hp]
  next => exact h r

theorem SameOutbox.stored_iff (h : SameOutbox outbox rows) (r : String) :
    (rows.get? r).isSome = (outbox.get? r).isSome := by
  rw [← h r, isSome_map]

theorem SameOutbox.submitted (h : SameOutbox outbox rows) (r : String) :
    SameOutbox (Table.setdefault outbox (r, false)) (rows.setdefault { runId := r }) := by
  have hstored := h.stored_iff r
  rw [Dict.get?, isSome_map] at hstored
  cases hg : rows.get? r with
  | none =>
    rw [hg] at hstored
    have hm : Table.get? outbox (r, false).1 = none := by simpa using hstored.symm
    have hr : rows.get? (OutboxRow.runId { runId := r }) = none := hg
    rw [Table.setdefault_of_none hm, Table.setdefault_of_none hr]
    exact h.put rfl
  | some row =>
    rw [hg] at hstored
    obtain ⟨entry, hm⟩ := isSome_iff_exists.mp hstored.symm
    have hm : Table.get? outbox (r, false).1 = some entry := hm
    have hr : rows.get? (OutboxRow.runId { runId := r }) = some row := hg
    rw [Table.setdefault_of_get? hm, Table.setdefault_of_get? hr]
    exact h

theorem SameOutbox.published {s : RunRepository} {db : PostgresRunRepository}
    (h : SameOutbox s.outbox db.submissionOutbox) (r : String) (now : Moment) :
    SameOutbox (s.publishOutbox r) (db.publishOutbox r now) := by
  rw [RunRepository.publishOutbox, PostgresRunRepository.publishOutbox, ← h.stored_iff r]
  cases hg : db.submissionOutbox.get? r with
  | none =>
    rw [Table.updateWhere_miss (k := r) (by simp) (by simp [hg])]
    exact h
  | some row =>
    rw [Table.updateWhere_hit (k := r) (by simp) hg (by simpa using Table.key_of_get? hg)]
    obtain rfl : row.runId = r := Table.key_of_get? hg
    exact h.put rfl

end Outbox

end SelericSwarm
