import SelericSwarm.PostgresOutcomes
import SelericSwarm.SameRows

/-! The Postgres run repository refines the in-memory one: given the same calls
in the same order, both answer alike and hold the same runs, attempts and events. -/
open List

namespace SelericSwarm
open Keyed RunRepository

section Methods
variable {s : RunRepository} {db : PostgresRunRepository}

theorem Refines.attempt (h : Refines s db) (attempts : Table RunAttempt.id) :
    Refines { s with attempts := attempts } { db with runAttempts := attempts } where
  runs := h.runs
  attempts := rfl
  events := h.events.congr fun _ => rfl
  outbox := h.outbox

theorem WellFormed.leased (hs : WellFormed s) {a : RunAttempt} (ha : a ∈ s.attempts.rows)
    (hst : a.status = .running) : ∃ t, a.leaseExpiresAt = some t := by
  obtain ⟨v, past, -, hp⟩ := hs.current ha (by rw [hst]; rfl)
  exact Option.isSome_iff_exists.mp (hp.leased hst)

section
variable (h : Refines s db) (hs : s.Regular)
include h hs

theorem Refines.ended {r : String} {run : Run} {event : ActivityEvent} (hrun : s.items.get? r = some run)
    (he : Stores.EndsRun r event) (new : db.runEvents.table.get? event.id = none) (runs : Table Run.id)
    (attempts : Table RunAttempt.id) (now : Moment) :
    Refines
      ⟨runs, attempts, s.events.set r (s.eventsOf r ++ [s.numbered (s.eventsOf r) event]), s.publishOutbox r⟩
      ⟨runs, attempts, db.runEvents.add event new, db.publishOutbox r now⟩ where
  runs := rfl
  attempts := rfl
  events := h.events.ended hs hrun he new rfl
  outbox := h.outbox.published r now

end

end Methods

theorem RepositoryReply.Agrees.of_eq {reply reply' : RepositoryReply} (h : reply = reply') :
    RepositoryReply.Agrees reply reply' := by
  subst h
  cases reply <;> first | exact List.Perm.refl _ | exact ⟨rfl, rfl⟩ | rfl

namespace Stores
variable {w : Stores} {call : RepositoryCall}

end Stores

end SelericSwarm
