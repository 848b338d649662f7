import SelericSwarm.RunRepository

/-! `RunRecoveryService`. The scan of `recover_expired` takes a snapshot of the
attempts; `recover` is one turn of its loop on such a snapshot. -/
namespace SelericSwarm
open Keyed RunRepository

structure RecoveryResult where
  retryable : Nat := 0
  failed : Nat := 0
  alreadyRetryable : Nat := 0
  deriving DecidableEq, Repr

structure RunRecoveryService where
  retryDelay : Duration := 5000000
  retryJitter : Duration := 1000000

/-- What one turn of the loop did with a listed attempt. -/
inductive Recovered where
  | alreadyRetryable
  | missing
  | dropped (attempt : Option RunAttempt)
  | moved (transition : FailedTransition)

def Recovered.failed : Recovered → Bool
  | .moved .failed => true
  | _ => false

/-- The counters after one turn; `s` is the repository the turn left. -/
def RecoveryResult.count (result : RecoveryResult) (recovered : Recovered) (s : RunRepository)
    (runId : String) : RecoveryResult :=
  match recovered with
  | .alreadyRetryable => { result with alreadyRetryable := result.alreadyRetryable + 1 }
  | .moved .retryable => { result with retryable := result.retryable + 1 }
  | .moved _ =>
    if (s.get runId).any (·.status = .failed) then { result with failed := result.failed + 1 }
    else result
  | _ => result

namespace RunRecoveryService

/-- `draw` stands for the value `random.uniform` returns. -/
def delay (service : RunRecoveryService) (attempt : RunAttempt) (draw : Duration) : Duration :=
  let delay := service.retryDelay * 2 ^ (attempt.attemptNumber - 1)
  if 0 < delay then delay + min (max 0 draw) (max 0 service.retryJitter) else delay

def nextAttempt (service : RunRecoveryService) (s : RunRepository) (attempt : RunAttempt)
    (moment : Moment) (errorCode errorMessage : String) (leaseExpiredBefore : Option Moment)
    (draw : Duration) : FailedTransition × RunRepository :=
  s.transitionFailedAttempt attempt.id attempt.version (service.delay attempt draw) moment errorCode
    errorMessage (if leaseExpiredBefore = none then attempt.workerId else none) leaseExpiredBefore

def failAttempt (service : RunRecoveryService) (s : RunRepository) (attempt : RunAttempt)
    (errorCode errorMessage : String) (now : Moment) (draw : Duration) :
    FailedTransition × RunRepository :=
  service.nextAttempt s attempt now errorCode errorMessage none draw

def recover (service : RunRecoveryService) (s : RunRepository) (attempt : RunAttempt)
    (moment : Moment) (draw : Duration) : Recovered × RunRepository :=
  if attempt.status = .retryable then (.alreadyRetryable, s)
  else match s.get attempt.runId with
  | none => (.missing, s)
  | some run =>
    if run.status = .cancelled then
      let (dropped, s) := s.compareAndSetAttempt attempt.id .running .cancelled none
        (some attempt.version) (some moment) moment (some "CANCELLED") none
      (.dropped dropped, s)
    else
      let (transition, s) := service.nextAttempt s attempt moment "LEASE_EXPIRED"
        "Worker lease expired before completion." (some moment) draw
      (.moved transition, s)

def recoverExpired (service : RunRecoveryService) (s : RunRepository) (moment : Moment)
    (limit : Nat) (draw : RunAttempt → Duration) : RecoveryResult × RunRepository :=
  (s.listRecoverable moment limit).foldl
    (fun (result, s) attempt =>
      let (recovered, s) := service.recover s attempt moment (draw attempt)
      (result.count recovered s attempt.runId, s))
    ({}, s)

end RunRecoveryService
end SelericSwarm
