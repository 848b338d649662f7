import Mathlib.Data.List.Basic
import SelericSwarm.Machine

/-! The voice session's questions: each is a task that posts it, follows the run that the server has accepted
for it and speaks, until a newer question or the user stops it. -/
open List

namespace SelericSwarm.Voice

/-- Where the task of `_run` waits; a question that the server has got is accepted or refused. -/
inductive Stage where
  | created
  | posting (outcome : Option Bool)
  | following (run : Nat)
  | over
  deriving DecidableEq

/-- `told` is set once the task is cancelled, to whether its run had ended by then; the exception comes at its
next step. `run` and `ended` are the server's, and the request of an `adrift` turn may still reach it. -/
structure Turn where
  stage : Stage := .created
  told : Option Bool := none
  run : Option Nat := none
  ended : Bool := false
  adrift : Bool := false
  deriving DecidableEq

/-- `task` and `runId` are the runner's own fields, `pending` the tasks of `_cancel_run` and `sent` their
requests. All turns below `silenced` have been followed by a `submit` or a `cancel`; each line spoken is
kept with its turn and with what was silenced then. -/
structure VoiceTurnRunner where
  turns : List Turn := []
  task : Option Nat := none
  runId : Option Nat := none
  accepted : Nat := 0
  pending : List Nat := []
  sent : List Nat := []
  silenced : Nat := 0
  spoken : List (Nat × Nat) := []

/-- `serve`, `arrive` and `endRun` are the server's steps; `deliver` throws the cancellation. -/
inductive VoiceStep where
  | submit
  | cancel
  | start (turn : Nat)
  | serve (turn : Nat) (accepts : Bool)
  | arrive (turn : Nat)
  | endRun (turn : Nat)
  | reply (turn : Nat) (answered : Bool)
  | narrate (turn : Nat)
  | finish (turn : Nat) (aloud : Bool)
  | deliver (turn : Nat)
  | send (request : Nat)

namespace VoiceTurnRunner
variable (s : VoiceTurnRunner)

def put (i : Nat) (t : Turn) : VoiceTurnRunner := { s with turns := s.turns.set i t }

def say (i : Nat) : VoiceTurnRunner := { s with spoken := s.spoken ++ [(i, s.silenced)] }

/-- The task in `_task`, unless it is done. -/
def current : Option (Nat × Turn) :=
  s.task.bind fun i => (s.turns[i]?.filter (·.stage ≠ .over)).map fun t => (i, t)

/-- `task.cancel()`, and `_cancel_run` if the run is known. -/
def stop : VoiceTurnRunner :=
  match s.current with
  | some (i, t) =>
    { s with
      turns := s.turns.set i { t with told := t.told <|> some t.ended }
      pending := s.pending ++ s.runId.toList }
  | none => s

def submit : VoiceTurnRunner :=
  { s.stop with
    turns := s.stop.turns ++ [{}]
    task := some s.turns.length
    runId := none
    silenced := s.turns.length }

def cancel : Bool × VoiceTurnRunner :=
  if s.current.isSome then (true, { s.stop with runId := none, silenced := s.turns.length })
  else (false, { s with silenced := s.turns.length })

/-- The server gets the question. -/
def serve (i : Nat) (t : Turn) (accepts : Bool) : VoiceTurnRunner :=
  if accepts then
    { s with
      turns := s.turns.set i { t with stage := .posting (some true), run := some s.accepted }
      accepted := s.accepted + 1 }
  else s.put i { t with stage := .posting (some false) }

/-- The rest of `_submit`; without the id of an accepted run, or an answer at all, a line says so. -/
def reply (i : Nat) (t : Turn) (outcome : Option Bool) (answered : Bool) : Option VoiceTurnRunner :=
  match outcome, t.run with
  | some true, some run =>
    if answered then some { s.put i { t with stage := .following run } with runId := some run }
    else some ((s.put i { t with stage := .over }).say i)
  | some _, _ => some ((s.put i { t with stage := .over }).say i)
  | none, _ => if answered then none else some ((s.put i { t with stage := .over, adrift := true }).say i)

/-- The `finally` of `_run`. -/
def leave (i : Nat) (t : Turn) (run : Nat) : VoiceTurnRunner :=
  { s.put i { t with stage := .over } with runId := if s.runId = some run then none else s.runId }

/-- The cancellation in the task: nothing has begun, the request is aborted, or the run is left. -/
def deliver (i : Nat) (t : Turn) : Option VoiceTurnRunner :=
  match t.stage with
  | .created | .posting (some _) => some (s.put i { t with stage := .over })
  | .posting none => some (s.put i { t with stage := .over, adrift := true })
  | .following run => some (s.leave i t run)
  | .over => none

def step (s : VoiceTurnRunner) : VoiceStep → Option VoiceTurnRunner
  | .submit => some s.submit
  | .cancel => some s.cancel.2
  | .start i => s.turns[i]?.bind fun t =>
    if t.stage = .created ∧ t.told = none then some (s.put i { t with stage := .posting none }) else none
  | .serve i accepts => s.turns[i]?.bind fun t =>
    if t.stage = .posting none then some (s.serve i t accepts) else none
  | .arrive i => s.turns[i]?.bind fun t =>
    if t.adrift then
      some { s with
        turns := s.turns.set i { t with run := some s.accepted, adrift := false }
        accepted := s.accepted + 1 }
    else none
  | .endRun i => s.turns[i]?.bind fun t =>
    if t.run.isSome then some (s.put i { t with ended := true }) else none
  | .reply i answered => s.turns[i]?.bind fun t => match t.stage with
    | .posting outcome => if t.told = none then s.reply i t outcome answered else none
    | _ => none
  | .narrate i => s.turns[i]?.bind fun t => match t.stage with
    | .following _ => if t.told = none then some (s.say i) else none
    | _ => none
  | .finish i aloud => s.turns[i]?.bind fun t => match t.stage with
    | .following run =>
      if t.told = none then some (if aloud then (s.leave i t run).say i else s.leave i t run) else none
    | _ => none
  | .deliver i => s.turns[i]?.bind fun t => if t.told.isSome then s.deliver i t else none
  | .send k => s.pending[k]?.map fun run =>
    { s with pending := s.pending.eraseIdx k, sent := s.sent ++ [run] }

/-- A run of a question that was stopped before the run had ended, with no request to cancel it. -/
def Orphan (i : Nat) : Prop :=
  ∃ t ∈ s.turns[i]?, t.told = some false ∧ ∃ run ∈ t.run, run ∉ s.pending ∧ run ∉ s.sent

/-- No question is stopped between the server's acceptance and its answer, unless its run has ended; and none
is accepted that has been stopped. -/
def Sound (s : VoiceTurnRunner) : VoiceStep → Prop
  | .submit | .cancel => ∀ c ∈ s.current, c.2.stage = .posting (some true) → c.2.told = none → c.2.ended = true
  | .serve i true | .arrive i => ∀ t ∈ s.turns[i]?, t.told = none
  | _ => True

instance (i : Nat) : Decidable (s.Orphan i) :=
  inferInstanceAs (Decidable (∃ t ∈ s.turns[i]?, t.told = some false ∧ ∃ run ∈ t.run, run ∉ s.pending ∧ run ∉ s.sent))

instance (a : VoiceStep) : Decidable (s.Sound a) := by
  unfold Sound
  split <;> infer_instance

/-! What holds of the runner. -/

/-- The turn follows the run and has not been stopped. -/
def Follows (i run : Nat) : Prop := ∃ t, s.turns[i]? = some t ∧ t.stage = .following run ∧ t.told = none

end VoiceTurnRunner

structure Turn.Fine (t : Turn) (accepted : Nat) : Prop where
  unknown : t.stage = .created ∨ t.stage = .posting none ∨ t.stage = .posting (some false) → t.run = none
  answered : t.stage = .posting (some true) → t.run.isSome
  followed : ∀ run, t.stage = .following run → t.run = some run
  adrift : t.adrift = true → t.stage = .over ∧ t.run = none
  bound : ∀ run, t.run = some run → run < accepted
  doomed : t.told = some true ∨ t.ended = true → t.run.isSome

namespace VoiceTurnRunner

structure Kept (s : VoiceTurnRunner) : Prop where
  fine : ∀ (i : Nat) (t : Turn), s.turns[i]? = some t → t.Fine s.accepted
  distinct : ∀ (i j : Nat) (t u : Turn) (run : Nat), s.turns[i]? = some t → s.turns[j]? = some u →
    t.run = some run → u.run = some run → i = j
  last : ∀ (i : Nat) (t : Turn), s.turns[i]? = some t → t.stage ≠ .over → t.told = none →
    s.task = some i ∧ s.silenced ≤ i
  task : ∀ i, s.task = some i → i + 1 = s.turns.length
  empty : s.task = none → s.turns = []
  id : ∀ run, s.runId = some run ↔ ∃ i, s.Follows i run
  spoken : ∀ x ∈ s.spoken, x.2 ≤ x.1
  requests : ∀ run, run ∈ s.pending ∨ run ∈ s.sent →
    ∃ (j : Nat) (u : Turn), s.turns[j]? = some u ∧ u.run = some run ∧ u.told.isSome

variable {s s' : VoiceTurnRunner} {i j run : Nat} {t t' u : Turn}

theorem getElem?_set_some {turns : List Turn} (h : (turns.set i t')[j]? = some u) :
    j = i ∧ u = t' ∨ j ≠ i ∧ turns[j]? = some u := by
  rw [List.getElem?_set] at h
  split at h
  · rename_i heq
    split at h
    · exact Or.inl ⟨heq.symm, (Option.some.inj h).symm⟩
    · cases h
  · rename_i hne
    exact Or.inr ⟨fun heq => hne heq.symm, h⟩

theorem getElem?_set_same {turns : List Turn} (h : turns[i]? = some t) : (turns.set i t')[i]? = some t' :=
  List.getElem?_set_self (List.getElem?_eq_some_iff.mp h).1

theorem follows_set (ht : s.turns[i]? = some t) (t' : Turn) (hturns : s'.turns = s.turns.set i t') :
    s'.Follows j run ↔ j = i ∧ t'.stage = .following run ∧ t'.told = none ∨ j ≠ i ∧ s.Follows j run := by
  constructor
  · rintro ⟨u, hu, hstage, htold⟩
    rw [hturns] at hu
    obtain ⟨rfl, rfl⟩ | ⟨hne, hu⟩ := getElem?_set_some hu
    · exact Or.inl ⟨rfl, hstage, htold⟩
    · exact Or.inr ⟨hne, u, hu, hstage, htold⟩
  · rintro (⟨rfl, hstage, htold⟩ | ⟨hne, u, hu, hstage, htold⟩)
    · exact ⟨t', by rw [hturns, getElem?_set_same ht], hstage, htold⟩
    · exact ⟨u, by rw [hturns, List.getElem?_set_ne hne.symm, hu], hstage, htold⟩

section
variable (h : Kept s) (ht : s.turns[i]? = some t)
include h ht

theorem Kept.update (t' : Turn) (hturns : s'.turns = s.turns.set i t') (htask : s'.task = s.task)
    (hsilenced : s'.silenced = s.silenced) (haccepted : s.accepted ≤ s'.accepted) (hfine : t'.Fine s'.accepted)
    (hrun : ∀ run, t'.run = some run → t.run = some run ∨ run = s.accepted)
    (hopen : t'.stage ≠ .over → t.stage ≠ .over) (htold : t'.told = t.told)
    (hkeep : ∀ run, t.run = some run → t'.run = some run) (hid : ∀ run, s'.runId = some run ↔ ∃ j, s'.Follows j run)
    (hspoken : ∀ x ∈ s'.spoken, x.2 ≤ x.1) (hpending : s'.pending = s.pending) (hsent : s'.sent = s.sent) :
    Kept s' := by
  have hfresh : ∀ (j : Nat) (u : Turn), s.turns[j]? = some u → u.run ≠ some s.accepted := fun j u hu hrun =>
    Nat.lt_irrefl _ ((h.fine j u hu).bound _ hrun)
  refine ⟨fun j u hu => ?_, fun j k u v run hu hv hurun hvrun => ?_, fun j u hu hover hutold => ?_, ?_, ?_, hid, hspoken, ?_⟩
  · rw [hturns] at hu
    obtain ⟨-, rfl⟩ | ⟨-, hu⟩ := getElem?_set_some hu
    · exact hfine
    · obtain ⟨hunknown, hanswered, hfollowed, hadrift, hbound, hdoomed⟩ := h.fine j u hu
      exact ⟨hunknown, hanswered, hfollowed, hadrift, fun run hrun => Nat.lt_of_lt_of_le (hbound run hrun) haccepted,
        hdoomed⟩
  · rw [hturns] at hu hv
    obtain ⟨hj, hut⟩ | ⟨hj, hu'⟩ := getElem?_set_some hu <;> obtain ⟨hk, hvt⟩ | ⟨hk, hv'⟩ := getElem?_set_some hv
    · rw [hj, hk]
    · rw [hut] at hurun
      obtain hold | heq := hrun run hurun
      · exact hj.trans (h.distinct i k t v run ht hv' hold hvrun)
      · exact absurd (heq ▸ hvrun) (hfresh k v hv')
    · rw [hvt] at hvrun
      obtain hold | heq := hrun run hvrun
      · exact (h.distinct j i u t run hu' ht hurun hold).trans hk.symm
      · exact absurd (heq ▸ hurun) (hfresh j u hu')
    · exact h.distinct j k u v run hu' hv' hurun hvrun
  · rw [hturns] at hu
    rw [htask, hsilenced]
    obtain ⟨rfl, rfl⟩ | ⟨-, hu⟩ := getElem?_set_some hu
    · exact h.last _ t ht (hopen hover) (htold ▸ hutold)
    · exact h.last j u hu hover hutold
  · rw [htask, hturns, length_set]
    exact h.task
  · rw [htask, hturns]
    intro hnone
    rw [h.empty hnone]
    rfl
  · intro run hrequest
    rw [hpending, hsent] at hrequest
    obtain ⟨j, u, hu, hurun, hutold⟩ := h.requests run hrequest
    rw [hturns]
    by_cases hj : j = i
    · subst hj
      obtain rfl := Option.some.inj (ht.symm.trans hu)
      exact ⟨j, t', getElem?_set_same ht, hkeep run hurun, htold ▸ hutold⟩
    · exact ⟨j, u, by rw [List.getElem?_set_ne fun heq => hj heq.symm, hu], hurun, hutold⟩

theorem Kept.id_same {t' : Turn} (hturns : s'.turns = s.turns.set i t') (hrunId : s'.runId = s.runId)
    (hsame : ∀ run, t'.stage = .following run ∧ t'.told = none ↔ t.stage = .following run ∧ t.told = none)
    (run : Nat) : s'.runId = some run ↔ ∃ j, s'.Follows j run := by
  rw [hrunId, h.id run]
  refine exists_congr fun j => ?_
  rw [follows_set ht t' hturns, hsame run]
  constructor
  · rintro ⟨u, hu, hstage, htold⟩
    by_cases hj : j = i
    · subst hj
      obtain rfl := Option.some.inj (ht.symm.trans hu)
      exact Or.inl ⟨rfl, hstage, htold⟩
    · exact Or.inr ⟨hj, u, hu, hstage, htold⟩
  · rintro (⟨rfl, hstage, htold⟩ | ⟨-, hfollows⟩)
    · exact ⟨t, ht, hstage, htold⟩
    · exact hfollows

theorem Kept.open_unique (hover : t.stage ≠ .over) (htold : t.told = none) (hu : s.turns[j]? = some u)
    (hover' : u.stage ≠ .over) (htold' : u.told = none) : i = j :=
  Option.some.inj ((h.last i t ht hover htold).1.symm.trans (h.last j u hu hover' htold').1)

theorem Kept.put (t' : Turn) (hfine : t'.Fine s.accepted) (hrun : t'.run = t.run)
    (hopen : t'.stage ≠ .over → t.stage ≠ .over) (htold : t'.told = t.told)
    (hsame : ∀ r, t'.stage = .following r ∧ t'.told = none ↔ t.stage = .following r ∧ t.told = none) :
    Kept (s.put i t') :=
  h.update ht t' rfl rfl rfl (Nat.le_refl _) hfine (fun _ hr => Or.inl (hrun ▸ hr)) hopen htold
    (fun _ hr => hrun.trans hr) (h.id_same ht rfl rfl hsame) h.spoken rfl rfl

end

theorem Kept.say (h : Kept s) (hlast : s.silenced ≤ i) : Kept (s.say i) := by
  refine ⟨h.fine, h.distinct, h.last, h.task, h.empty, h.id, fun x hx => ?_, h.requests⟩
  obtain hx | hx := mem_append.mp hx
  · exact h.spoken x hx
  · rw [mem_singleton.mp hx]
    exact hlast

theorem fine_close (h : t.Fine s.accepted) : ({ t with stage := .over } : Turn).Fine s.accepted :=
  ⟨by simp, by simp, by simp, fun ha => ⟨rfl, (h.adrift ha).2⟩, h.bound, h.doomed⟩

theorem not_adrift (h : t.Fine s.accepted) (hstage : t.stage ≠ .over) : t.adrift ≠ true :=
  fun ha => hstage (h.adrift ha).1

section
variable (h : Kept s) (ht : s.turns[i]? = some t)
include h ht

theorem Kept.close (hstage : ∀ r, t.stage ≠ .following r) : Kept (s.put i { t with stage := .over }) :=
  h.put ht _ (fine_close (h.fine i t ht)) rfl (fun hover => absurd rfl hover) rfl fun r => by simp [hstage r]

theorem Kept.closeAdrift (hstage : t.stage = .posting none) :
    Kept (s.put i { t with stage := .over, adrift := true }) := by
  have hfine := h.fine i t ht
  have hnone := hfine.unknown (Or.inr (Or.inl hstage))
  exact h.put ht _ ⟨by simp, by simp, by simp, fun _ => ⟨rfl, hnone⟩, hfine.bound, hfine.doomed⟩ rfl
    (fun hover => absurd rfl hover) rfl fun run => by simp [hstage]

theorem Kept.start (hstage : t.stage = .created) : Kept (s.put i { t with stage := .posting none }) := by
  have hfine := h.fine i t ht
  have hnone := hfine.unknown (Or.inl hstage)
  have hadrift := not_adrift hfine (by simp [hstage])
  exact h.put ht _ ⟨fun _ => hnone, by simp, by simp, fun ha => absurd ha hadrift, hfine.bound, hfine.doomed⟩ rfl
    (fun _ => by simp [hstage]) rfl fun run => by simp [hstage]

theorem Kept.serve (hstage : t.stage = .posting none) (accepts : Bool) : Kept (s.serve i t accepts) := by
  have hfine := h.fine i t ht
  have hnone := hfine.unknown (Or.inr (Or.inl hstage))
  have hadrift := not_adrift hfine (by simp [hstage])
  cases accepts with
  | true =>
    refine h.update ht { t with stage := .posting (some true), run := some s.accepted } rfl rfl rfl (Nat.le_succ _)
      ⟨by simp, by simp, by simp, fun ha => absurd ha hadrift, fun run hrun => ?_, fun _ => rfl⟩
      (fun run hrun => Or.inr (Option.some.inj hrun).symm) (fun _ => by simp [hstage]) rfl
      (fun run hrun => by simp [hnone] at hrun) ?_ h.spoken rfl rfl
    · rw [← Option.some.inj hrun]
      exact Nat.lt_succ_self _
    · exact h.id_same ht rfl rfl fun run => by simp [hstage]
  | false =>
    exact h.put ht { t with stage := .posting (some false) }
      ⟨fun _ => hnone, by simp, by simp, fun ha => absurd ha hadrift, hfine.bound, hfine.doomed⟩ rfl
      (fun _ => by simp [hstage]) rfl fun run => by simp [hstage]

theorem Kept.arrive (hadrift : t.adrift = true) :
    Kept { s with
      turns := s.turns.set i { t with run := some s.accepted, adrift := false }
      accepted := s.accepted + 1 } := by
  obtain ⟨hover, hnone⟩ := (h.fine i t ht).adrift hadrift
  refine h.update ht { t with run := some s.accepted, adrift := false } rfl rfl rfl (Nat.le_succ _)
    ⟨by simp [hover], by simp, by simp [hover], by simp, fun run hrun => ?_, fun _ => rfl⟩
    (fun run hrun => Or.inr (Option.some.inj hrun).symm) (fun hover => hover) rfl (fun run hrun => by simp [hnone] at hrun) ?_ h.spoken
    rfl rfl
  · rw [← Option.some.inj hrun]
    exact Nat.lt_succ_self _
  · exact h.id_same ht rfl rfl fun run => Iff.rfl

theorem Kept.endRun (hrun : t.run.isSome) : Kept (s.put i { t with ended := true }) := by
  obtain ⟨hunknown, hanswered, hfollowed, hadrift, hbound, -⟩ := h.fine i t ht
  exact h.put ht _ ⟨hunknown, hanswered, hfollowed, hadrift, hbound, fun _ => hrun⟩ rfl
    (fun hover => hover) rfl fun _ => Iff.rfl

theorem Kept.follow (hstage : t.stage = .posting (some true)) (htold : t.told = none) (hrun : t.run = some run) :
    Kept { s.put i { t with stage := .following run } with runId := some run } := by
  have hfine := h.fine i t ht
  have hadrift := not_adrift hfine (by simp [hstage])
  refine h.update ht { t with stage := .following run } rfl rfl rfl (Nat.le_refl _)
    ⟨by simp, by simp, fun r hr => ?_, fun ha => absurd ha hadrift, hfine.bound, hfine.doomed⟩ (fun r hr => Or.inl hr)
    (fun _ => by simp [hstage]) rfl (fun r hr => hr) (fun r => ?_) h.spoken rfl rfl
  · rw [hrun]
    cases hr
    rfl
  · constructor
    · intro hr
      obtain rfl := Option.some.inj hr
      exact ⟨i, (follows_set ht { t with stage := .following run } rfl).mpr (Or.inl ⟨rfl, rfl, htold⟩)⟩
    · rintro ⟨j, hj⟩
      obtain ⟨-, hr, -⟩ | ⟨hne, u, hu, hfollowing, hutold⟩ := (follows_set ht { t with stage := .following run } rfl).mp hj
      · cases hr
        rfl
      · exact absurd (h.open_unique hu (by simp [hfollowing]) hutold ht (by simp [hstage]) htold) hne

theorem Kept.leave (hstage : t.stage = .following run) : Kept (s.leave i t run) := by
  have hfine := h.fine i t ht
  have hrun := hfine.followed run hstage
  refine h.update ht { t with stage := .over } rfl rfl rfl (Nat.le_refl _) (fine_close hfine)
    (fun r hr => Or.inl hr) (fun hover => absurd rfl hover) rfl (fun r hr => hr) (fun r => ?_) h.spoken rfl rfl
  have hother : ∀ j r, j ≠ i → s.Follows j r → r ≠ run := by
    rintro j r hne ⟨u, hu, hfollowing, -⟩ rfl
    exact hne (h.distinct j i u t r hu ht ((h.fine j u hu).followed r hfollowing) hrun)
  have hiff : (∃ j, (s.leave i t run).Follows j r) ↔ ∃ j, j ≠ i ∧ s.Follows j r := by
    refine exists_congr fun j => ?_
    rw [follows_set ht { t with stage := .over } rfl]
    simp
  rw [hiff, VoiceTurnRunner.leave]
  by_cases hid : s.runId = some run
  · rw [if_pos hid]
    refine ⟨fun hr => absurd hr (by simp), fun ⟨j, hne, hj⟩ => ?_⟩
    have hr := (h.id r).mpr ⟨j, hj⟩
    rw [hid] at hr
    exact absurd (Option.some.inj hr).symm (hother j r hne hj)
  · rw [if_neg hid, h.id r]
    constructor
    · rintro ⟨j, hj⟩
      refine ⟨j, fun heq => ?_, hj⟩
      subst heq
      obtain ⟨u, hu, hfollowing, htold⟩ := hj
      obtain rfl := Option.some.inj (ht.symm.trans hu)
      exact hid ((h.id run).mpr ⟨j, t, ht, hstage, htold⟩)
    · rintro ⟨j, -, hj⟩
      exact ⟨j, hj⟩

end

/-! Stopping. -/

theorem current_eq_some : s.current = some (i, t) ↔ s.task = some i ∧ s.turns[i]? = some t ∧ t.stage ≠ .over := by
  unfold current
  cases htask : s.task with
  | none => simp
  | some k =>
    rw [Option.bind_some]
    constructor
    · intro h
      obtain ⟨u, hu, heq⟩ := Option.map_eq_some_iff.mp h
      obtain ⟨hu, hover⟩ := Option.filter_eq_some_iff.mp hu
      cases heq
      exact ⟨rfl, hu, by simpa using hover⟩
    · rintro ⟨hk, hu, hover⟩
      obtain rfl := Option.some.inj hk
      have hfilter : (s.turns[k]?).filter (·.stage ≠ .over) = some t :=
        Option.filter_eq_some_iff.mpr ⟨hu, by simpa using hover⟩
      rw [hfilter]
      rfl

theorem Kept.stop_turns (h : Kept s) (hu : s.stop.turns[j]? = some u) : ∃ t, s.turns[j]? = some t ∧
    u = { t with told := u.told } ∧ (u.stage ≠ .over → u.told.isSome) ∧ (t.told.isSome → u.told = t.told) ∧
      (u.told = t.told ∨ s.current = some (j, t) ∧ t.told = none ∧ u.told = some t.ended) := by
  unfold stop at hu
  cases hcurrent : s.current with
  | none =>
    rw [hcurrent] at hu
    refine ⟨u, hu, rfl, fun hover => ?_, fun _ => rfl, Or.inl rfl⟩
    by_contra htold
    have hnone : u.told = none := by simpa using htold
    have hsome := current_eq_some.mpr ⟨(h.last j u hu hover hnone).1, hu, hover⟩
    rw [hcurrent] at hsome
    cases hsome
  | some c =>
    obtain ⟨i, t⟩ := c
    rw [hcurrent] at hu
    obtain ⟨htask, ht, hopen⟩ := current_eq_some.mp hcurrent
    obtain ⟨rfl, rfl⟩ | ⟨hne, hu⟩ := getElem?_set_some hu
    · refine ⟨t, ht, rfl, fun _ => ?_, fun htold => ?_, ?_⟩
      · cases t.told <;> rfl
      · obtain ⟨b, hb⟩ := Option.isSome_iff_exists.mp htold
        simp [hb]
      · cases htold : t.told with
        | none => exact Or.inr ⟨rfl, rfl, rfl⟩
        | some b => exact Or.inl rfl
    · refine ⟨u, hu, rfl, fun hover => ?_, fun _ => rfl, Or.inl rfl⟩
      by_contra htold
      have hnone : u.told = none := by simpa using htold
      exact hne (Option.some.inj ((h.last j u hu hover hnone).1.symm.trans htask))

theorem stop_length : s.stop.turns.length = s.turns.length := by
  unfold stop
  split
  · exact length_set
  · rfl

theorem stop_fields : s.stop.task = s.task ∧ s.stop.accepted = s.accepted ∧ s.stop.spoken = s.spoken ∧ s.stop.sent = s.sent ∧
    s.stop.runId = s.runId := by
  unfold stop
  split <;> exact ⟨rfl, rfl, rfl, rfl, rfl⟩

theorem Kept.stop_get (h : Kept s) (ht : s.turns[j]? = some t) : ∃ u, s.stop.turns[j]? = some u ∧
    u = { t with told := u.told } ∧ (u.stage ≠ .over → u.told.isSome) ∧ (t.told.isSome → u.told = t.told) := by
  have hlt := (List.getElem?_eq_some_iff.mp ht).1
  rw [← stop_length] at hlt
  obtain ⟨t', ht', heq, hopen, htold, -⟩ := h.stop_turns (List.getElem?_eq_getElem hlt)
  obtain rfl := Option.some.inj (ht.symm.trans ht')
  exact ⟨_, List.getElem?_eq_getElem hlt, heq, hopen, htold⟩

theorem mem_stop_pending : run ∈ s.stop.pending → run ∈ s.pending ∨ s.runId = some run := by
  unfold stop
  split
  · intro hrun
    obtain hrun | hrun := mem_append.mp hrun
    · exact Or.inl hrun
    · exact Or.inr (by simpa using hrun)
  · exact Or.inl

/-- With its task the runner stops every question that is open. -/
theorem Kept.stopped (h : Kept s) : Kept { s.stop with runId := none, silenced := s.turns.length } := by
  obtain ⟨htask, haccepted, hspoken, hsent, -⟩ := stop_fields (s := s)
  refine ⟨fun i u hu => ?_, fun i j u v run hu hv hurun hvrun => ?_, fun i u hu hover htold => ?_, fun i hi => ?_,
    fun hnone => ?_, fun run => ?_, fun x hx => h.spoken x (hspoken ▸ hx), fun run hrequest => ?_⟩
  · obtain ⟨t, ht, heq, -, -, htold⟩ := h.stop_turns hu
    obtain ⟨hunknown, hanswered, hfollowed, hadrift, hbound, hdoomed⟩ := h.fine i t ht
    rw [heq]
    refine ⟨hunknown, hanswered, hfollowed, hadrift, haccepted ▸ hbound, fun hdoom => hdoomed ?_⟩
    obtain hsame | ⟨-, -, hended⟩ := htold
    · rwa [hsame] at hdoom
    · refine Or.inr (hdoom.elim (fun htrue => ?_) fun hended' => hended')
      rw [hended] at htrue
      exact Option.some.inj htrue
  · obtain ⟨t, ht, heq, -⟩ := h.stop_turns hu
    obtain ⟨t', ht', heq', -⟩ := h.stop_turns hv
    rw [heq] at hurun
    rw [heq'] at hvrun
    exact h.distinct i j t t' run ht ht' hurun hvrun
  · obtain ⟨-, -, -, hopen, -⟩ := h.stop_turns hu
    have hsome := hopen hover
    rw [htold] at hsome
    cases hsome
  · exact (h.task i (htask ▸ hi)).trans stop_length.symm
  · have hempty := h.empty (htask ▸ hnone)
    exact eq_nil_of_length_eq_zero (stop_length.trans (by rw [hempty]; rfl))
  · refine ⟨fun hrun => by simp at hrun, fun ⟨i, u, hu, hstage, htold⟩ => ?_⟩
    obtain ⟨-, -, -, hopen, -⟩ := h.stop_turns hu
    have hsome := hopen (by rw [hstage]; simp)
    rw [htold] at hsome
    cases hsome
  · have hold : (run ∈ s.pending ∨ run ∈ s.sent) ∨ s.runId = some run := by
      obtain hpending | hsent' := hrequest
      · exact (mem_stop_pending hpending).imp_left Or.inl
      · exact Or.inl (Or.inr (hsent ▸ hsent'))
    obtain hold | hrun := hold
    · obtain ⟨j, t, ht, htrun, htold⟩ := h.requests run hold
      obtain ⟨u, hu, heq, -, hkeep⟩ := h.stop_get ht
      exact ⟨j, u, hu, by rw [heq]; exact htrun, by rw [hkeep htold]; exact htold⟩
    · obtain ⟨j, t, ht, hstage, -⟩ := (h.id run).mp hrun
      obtain ⟨u, hu, heq, hopen, -⟩ := h.stop_get ht
      refine ⟨j, u, hu, ?_, hopen ?_⟩
      · rw [heq]
        exact (h.fine j t ht).followed run hstage
      · rw [heq, hstage]
        simp

theorem getElem?_append_one {turns : List Turn} (h : (turns ++ [t])[i]? = some u) :
    turns[i]? = some u ∨ i = turns.length ∧ u = t := by
  rw [List.getElem?_append] at h
  split at h
  · exact Or.inl h
  · rename_i hge
    rw [List.getElem?_singleton] at h
    split at h
    · exact Or.inr ⟨by omega, (Option.some.inj h).symm⟩
    · cases h

/-- A new question, with every open one stopped. -/
theorem Kept.append (h : Kept s) (hclosed : ∀ (i : Nat) (t : Turn), s.turns[i]? = some t → t.stage ≠ .over → t.told.isSome)
    (hsilenced : s.silenced = s.turns.length) (hrunId : s.runId = none) :
    Kept { s with turns := s.turns ++ [{}], task := some s.turns.length } := by
  have hnew : Turn.Fine {} s.accepted := ⟨fun _ => rfl, by simp, by simp, by simp, by simp, by simp⟩
  have hold {i : Nat} {t : Turn} (ht : s.turns[i]? = some t) : (s.turns ++ [({} : Turn)])[i]? = some t := by
    rw [List.getElem?_append_left (List.getElem?_eq_some_iff.mp ht).1, ht]
  refine ⟨fun i t ht => ?_, fun i j t u run ht hu htrun hurun => ?_, fun i t ht hover htold => ?_, fun i hi => ?_,
    fun hnone => absurd hnone (by simp), fun run => ?_, h.spoken, fun run hrequest => ?_⟩
  · obtain ht | ⟨-, rfl⟩ := getElem?_append_one ht
    · exact h.fine i t ht
    · exact hnew
  · obtain ht | ⟨-, rfl⟩ := getElem?_append_one ht
    · obtain hu | ⟨-, rfl⟩ := getElem?_append_one hu
      · exact h.distinct i j t u run ht hu htrun hurun
      · cases hurun
    · cases htrun
  · obtain ht | ⟨rfl, -⟩ := getElem?_append_one ht
    · have hsome := hclosed i t ht hover
      rw [htold] at hsome
      cases hsome
    · exact ⟨rfl, Nat.le_of_eq hsilenced⟩
  · rw [← Option.some.inj hi, length_append]
    rfl
  · refine ⟨fun hrun => ?_, fun ⟨i, t, ht, hstage, htold⟩ => ?_⟩
    · exact absurd (hrunId.symm.trans hrun) (by simp)
    · obtain ht | ⟨-, rfl⟩ := getElem?_append_one ht
      · have hsome := hclosed i t ht (by simp [hstage])
        rw [htold] at hsome
        cases hsome
      · cases hstage
  · obtain ⟨j, t, ht, htrun, htold⟩ := h.requests run hrequest
    exact ⟨j, t, hold ht, htrun, htold⟩

theorem Kept.submit (h : Kept s) : Kept s.submit := by
  have hclosed (i : Nat) (u : Turn) (hu : s.stop.turns[i]? = some u) (hover : u.stage ≠ .over) : u.told.isSome := by
    obtain ⟨-, -, -, hopen, -⟩ := h.stop_turns hu
    exact hopen hover
  have happend := h.stopped.append hclosed stop_length.symm rfl
  rwa [show ({ s.stop with runId := none, silenced := s.turns.length } : VoiceTurnRunner).turns.length = s.turns.length
    from stop_length] at happend

theorem Kept.cancel (h : Kept s) : Kept s.cancel.2 := by
  unfold VoiceTurnRunner.cancel
  split
  · exact h.stopped
  · rename_i hcurrent
    have hnone : s.current = none := by simpa using hcurrent
    refine ⟨h.fine, h.distinct, fun i t ht hover htold => ?_, h.task, h.empty, h.id, h.spoken, h.requests⟩
    have hsome := current_eq_some.mpr ⟨(h.last i t ht hover htold).1, ht, hover⟩
    rw [hnone] at hsome
    cases hsome

theorem Kept.reply (h : Kept s) (ht : s.turns[i]? = some t) {outcome : Option Bool} (hstage : t.stage = .posting outcome)
    (htold : t.told = none) {answered : Bool} (ha : s.reply i t outcome answered = some s') : Kept s' := by
  have hsilenced : s.silenced ≤ i := (h.last i t ht (by simp [hstage]) htold).2
  have hclose : Kept ((s.put i { t with stage := .over }).say i) := (h.close ht (by simp [hstage])).say hsilenced
  unfold VoiceTurnRunner.reply at ha
  split at ha
  · rename_i run hrun
    split at ha
    · obtain rfl := Option.some.inj ha
      exact h.follow ht hstage htold hrun
    · obtain rfl := Option.some.inj ha
      exact hclose
  · obtain rfl := Option.some.inj ha
    exact hclose
  · split at ha
    · cases ha
    · obtain rfl := Option.some.inj ha
      exact (h.closeAdrift ht hstage).say hsilenced

theorem Kept.deliver (h : Kept s) (ht : s.turns[i]? = some t) (ha : s.deliver i t = some s') : Kept s' := by
  unfold VoiceTurnRunner.deliver at ha
  split at ha
  · rename_i hstage
    obtain rfl := Option.some.inj ha
    exact h.close ht (by simp [hstage])
  · rename_i b hstage
    obtain rfl := Option.some.inj ha
    exact h.close ht (by simp [hstage])
  · rename_i hstage
    obtain rfl := Option.some.inj ha
    exact h.closeAdrift ht hstage
  · rename_i run hstage
    obtain rfl := Option.some.inj ha
    exact h.leave ht hstage
  · cases ha

theorem Kept.send (h : Kept s) {k : Nat} (hrun : s.pending[k]? = some run) :
    Kept { s with pending := s.pending.eraseIdx k, sent := s.sent ++ [run] } := by
  refine ⟨h.fine, h.distinct, h.last, h.task, h.empty, h.id, h.spoken, fun r hr => h.requests r ?_⟩
  obtain hpending | hsent := hr
  · exact Or.inl (mem_of_mem_eraseIdx hpending)
  · obtain hsent | hsent := mem_append.mp hsent
    · exact Or.inr hsent
    · rw [mem_singleton.mp hsent]
      exact Or.inl (mem_of_getElem? hrun)

theorem Kept.step (h : Kept s) (a : VoiceStep) (ha : s.step a = some s') : Kept s' := by
  cases a with
  | submit =>
    obtain rfl := Option.some.inj ha
    exact h.submit
  | cancel =>
    obtain rfl := Option.some.inj ha
    exact h.cancel
  | start i =>
    obtain ⟨t, ht, ha⟩ := Option.bind_eq_some_iff.mp ha
    split at ha
    · rename_i hguard
      obtain rfl := Option.some.inj ha
      exact h.start ht hguard.1
    · cases ha
  | serve i accepts =>
    obtain ⟨t, ht, ha⟩ := Option.bind_eq_some_iff.mp ha
    split at ha
    · rename_i hstage
      obtain rfl := Option.some.inj ha
      exact h.serve ht hstage accepts
    · cases ha
  | arrive i =>
    obtain ⟨t, ht, ha⟩ := Option.bind_eq_some_iff.mp ha
    split at ha
    · rename_i hadrift
      obtain rfl := Option.some.inj ha
      exact h.arrive ht hadrift
    · cases ha
  | endRun i =>
    obtain ⟨t, ht, ha⟩ := Option.bind_eq_some_iff.mp ha
    split at ha
    · rename_i hrun
      obtain rfl := Option.some.inj ha
      exact h.endRun ht hrun
    · cases ha
  | reply i answered =>
    obtain ⟨t, ht, ha⟩ := Option.bind_eq_some_iff.mp ha
    split at ha
    · rename_i outcome hstage
      split at ha
      · rename_i htold
        exact h.reply ht hstage htold ha
      · cases ha
    · cases ha
  | narrate i =>
    obtain ⟨t, ht, ha⟩ := Option.bind_eq_some_iff.mp ha
    split at ha
    · rename_i run hstage
      split at ha
      · rename_i htold
        obtain rfl := Option.some.inj ha
        exact h.say (h.last i t ht (by simp [hstage]) htold).2
      · cases ha
    · cases ha
  | finish i aloud =>
    obtain ⟨t, ht, ha⟩ := Option.bind_eq_some_iff.mp ha
    split at ha
    · rename_i run hstage
      split at ha
      · rename_i htold
        obtain rfl := Option.some.inj ha
        have hleave := h.leave ht hstage
        cases aloud with
        | true => exact hleave.say (h.last i t ht (by simp [hstage]) htold).2
        | false => exact hleave
      · cases ha
    · cases ha
  | deliver i =>
    obtain ⟨t, ht, ha⟩ := Option.bind_eq_some_iff.mp ha
    split at ha
    · exact h.deliver ht ha
    · cases ha
  | send k =>
    obtain ⟨run, hrun, ha⟩ := Option.map_eq_some_iff.mp ha
    subst ha
    exact h.send hrun

/-! Orphans. -/

theorem orphan_iff : s.Orphan i ↔ ∃ t run, s.turns[i]? = some t ∧ t.told = some false ∧ t.run = some run ∧
    run ∉ s.pending ∧ run ∉ s.sent := by
  constructor
  · rintro ⟨t, ht, htold, run, hrun, hfree⟩
    exact ⟨t, run, ht, htold, hrun, hfree⟩
  · rintro ⟨t, run, ht, htold, hrun, hfree⟩
    exact ⟨t, ht, htold, run, hrun, hfree⟩

theorem orphan_set (ht : s.turns[j]? = some t) (t' : Turn) (hturns : s'.turns = s.turns.set j t')
    (hpending : s'.pending = s.pending) (hsent : s'.sent = s.sent) (htold : t'.told = t.told)
    (hrun : t'.run = t.run ∨ t.told = none) (hkeep : ∀ run, t.run = some run → t'.run = some run) :
    s'.Orphan i ↔ s.Orphan i := by
  rw [orphan_iff, orphan_iff, hpending, hsent, hturns]
  constructor
  · rintro ⟨u, run, hu, hutold, hurun, hfree⟩
    obtain ⟨rfl, rfl⟩ | ⟨-, hu⟩ := getElem?_set_some hu
    · obtain hrun | hnone := hrun
      · exact ⟨t, run, ht, htold ▸ hutold, hrun ▸ hurun, hfree⟩
      · rw [htold, hnone] at hutold
        cases hutold
    · exact ⟨u, run, hu, hutold, hurun, hfree⟩
  · rintro ⟨u, run, hu, hutold, hurun, hfree⟩
    by_cases hi : i = j
    · subst hi
      obtain rfl := Option.some.inj (ht.symm.trans hu)
      exact ⟨t', run, getElem?_set_same ht, htold.trans hutold, hkeep run hurun, hfree⟩
    · exact ⟨u, run, by rw [List.getElem?_set_ne fun heq => hi heq.symm, hu], hutold, hurun, hfree⟩

theorem Kept.orphan_accepted (h : Kept s) (ht : s.turns[i]? = some t) (hrun : t.run = none) (htold : t.told ≠ none)
    (t' : Turn) (hturns : s'.turns = s.turns.set i t') (hpending : s'.pending = s.pending) (hsent : s'.sent = s.sent)
    (htold' : t'.told = t.told) (hrun' : t'.run = some s.accepted) : s'.Orphan i := by
  have hfalse : t.told = some false := by
    cases hb : t.told with
    | none => exact absurd hb htold
    | some b =>
      cases b with
      | false => rfl
      | true =>
        have hsome := (h.fine i t ht).doomed (Or.inl hb)
        rw [hrun] at hsome
        cases hsome
  have hfree : ¬(s.accepted ∈ s.pending ∨ s.accepted ∈ s.sent) := fun hrequest => by
    obtain ⟨j, u, hu, hurun, -⟩ := h.requests _ hrequest
    exact Nat.lt_irrefl _ ((h.fine j u hu).bound _ hurun)
  obtain ⟨hnot, hnot'⟩ := not_or.mp hfree
  refine orphan_iff.mpr ⟨t', s.accepted, ?_, htold'.trans hfalse, hrun', hpending ▸ hnot, hsent ▸ hnot'⟩
  rw [hturns, getElem?_set_same ht]

theorem stop_pending : (∀ run ∈ s.pending, run ∈ s.stop.pending) ∧
    ∀ c run, s.current = some c → s.runId = some run → run ∈ s.stop.pending := by
  unfold stop
  split
  · exact ⟨fun run hrun => mem_append_left _ hrun, fun c run _ hrun => mem_append_right _ (by simp [hrun])⟩
  · rename_i hnone
    refine ⟨fun run hrun => hrun, fun c run hc _ => ?_⟩
    rw [hnone] at hc
    cases hc

/-- Stopping makes an orphan of a question whose run the runner does not know yet. -/
theorem Kept.orphan_stop (h : Kept s) : s.stop.Orphan i ↔ s.Orphan i ∨
    ∃ t, s.current = some (i, t) ∧ t.stage = .posting (some true) ∧ t.told = none ∧ t.ended = false := by
  obtain ⟨-, -, -, hsent, -⟩ := stop_fields (s := s)
  rw [orphan_iff, orphan_iff, hsent]
  constructor
  · rintro ⟨u, run, hu, hutold, hurun, hpending, hnot⟩
    obtain ⟨t, ht, heq, -, -, htold⟩ := h.stop_turns hu
    rw [heq] at hurun
    have hold : run ∉ s.pending := fun hmem => hpending (stop_pending.1 run hmem)
    obtain hsame | ⟨hcurrent, hnone, hended⟩ := htold
    · exact Or.inl ⟨t, run, ht, hsame ▸ hutold, hurun, hold, hnot⟩
    · have hfalse : t.ended = false := Option.some.inj (hended.symm.trans hutold)
      refine Or.inr ⟨t, hcurrent, ?_, hnone, hfalse⟩
      have hfine := h.fine i t ht
      have hknown : t.run ≠ none := fun hrun => by
        rw [hrun] at hurun
        cases hurun
      cases hstage : t.stage with
      | created => exact absurd (hfine.unknown (Or.inl hstage)) hknown
      | posting outcome =>
        cases outcome with
        | none => exact absurd (hfine.unknown (Or.inr (Or.inl hstage))) hknown
        | some accepts =>
          cases accepts with
          | false => exact absurd (hfine.unknown (Or.inr (Or.inr hstage))) hknown
          | true => rfl
      | following r =>
        obtain rfl : r = run := Option.some.inj ((hfine.followed r hstage).symm.trans hurun)
        exact absurd (stop_pending.2 (i, t) r hcurrent ((h.id r).mpr ⟨i, t, ht, hstage, hnone⟩)) hpending
      | «over» => exact absurd hstage (current_eq_some.mp hcurrent).2.2
  · rintro (⟨t, run, ht, htold, hrun, hpending, hnot⟩ | ⟨t, hcurrent, hstage, hnone, hended⟩)
    · obtain ⟨u, hu, heq, -, hkeep⟩ := h.stop_get ht
      refine ⟨u, run, hu, (hkeep (by rw [htold]; rfl)).trans htold, by rw [heq]; exact hrun, fun hmem => ?_, hnot⟩
      obtain hmem | hid := mem_stop_pending hmem
      · exact hpending hmem
      · obtain ⟨j, t', ht', hfollowing, hnone⟩ := (h.id run).mp hid
        obtain rfl := h.distinct i j t t' run ht ht' hrun ((h.fine j t' ht').followed run hfollowing)
        obtain rfl := Option.some.inj (ht.symm.trans ht')
        rw [htold] at hnone
        cases hnone
    · obtain ⟨-, ht, -⟩ := current_eq_some.mp hcurrent
      obtain ⟨run, hrun⟩ := Option.isSome_iff_exists.mp ((h.fine i t ht).answered hstage)
      obtain ⟨u, hu, heq, hopen, -⟩ := h.stop_get ht
      have hutold : u.told = some false := by
        obtain ⟨t', ht', -, -, -, htold⟩ := h.stop_turns hu
        obtain rfl := Option.some.inj (ht.symm.trans ht')
        obtain hsame | ⟨-, -, hsome⟩ := htold
        · have hsome := hopen (by rw [heq, hstage]; simp)
          rw [hsame, hnone] at hsome
          cases hsome
        · rw [hsome, hended]
      have hfree : ¬(run ∈ s.pending ∨ run ∈ s.sent) := fun hrequest => by
        obtain ⟨j, v, hv, hvrun, hvtold⟩ := h.requests run hrequest
        obtain rfl := h.distinct i j t v run ht hv hrun hvrun
        obtain rfl := Option.some.inj (ht.symm.trans hv)
        rw [hnone] at hvtold
        cases hvtold
      obtain ⟨hnot, hnot'⟩ := not_or.mp hfree
      refine ⟨u, run, hu, hutold, by rw [heq]; exact hrun, fun hmem => ?_, hnot'⟩
      obtain hmem | hid := mem_stop_pending hmem
      · exact hnot hmem
      · obtain ⟨j, v, hv, hfollowing, -⟩ := (h.id run).mp hid
        obtain rfl := h.distinct i j t v run ht hv hrun ((h.fine j v hv).followed run hfollowing)
        obtain rfl := Option.some.inj (ht.symm.trans hv)
        rw [hstage] at hfollowing
        cases hfollowing

theorem orphan_submit : s.submit.Orphan i ↔ s.stop.Orphan i := by
  rw [orphan_iff, orphan_iff]
  constructor
  · rintro ⟨t, run, ht, htold, hrun, hfree⟩
    obtain ht | ⟨-, rfl⟩ := getElem?_append_one ht
    · exact ⟨t, run, ht, htold, hrun, hfree⟩
    · cases htold
  · rintro ⟨t, run, ht, htold, hrun, hfree⟩
    refine ⟨t, run, ?_, htold, hrun, hfree⟩
    rw [VoiceTurnRunner.submit, List.getElem?_append_left (List.getElem?_eq_some_iff.mp ht).1, ht]

theorem orphan_cancel : s.cancel.2.Orphan i ↔ s.stop.Orphan i := by
  unfold VoiceTurnRunner.cancel
  split
  · exact Iff.rfl
  · rename_i hcurrent
    have hnone : s.current = none := by simpa using hcurrent
    have hstop : s.stop = s := by rw [VoiceTurnRunner.stop, hnone]
    rw [hstop]
    exact Iff.rfl

theorem orphans_of_iff {a : VoiceStep} (hsound : s.Sound a) (h : ∀ i, s'.Orphan i ↔ s.Orphan i) :
    (∃ i, s'.Orphan i) ↔ (∃ i, s.Orphan i) ∨ ¬s.Sound a :=
  (exists_congr h).trans (or_iff_left fun hnot => hnot hsound).symm

/-- A run that becomes known to the server makes an orphan if its question has been stopped. -/
theorem Kept.orphans_accepted (h : Kept s) (ht : s.turns[j]? = some t) (hrun : t.run = none) (t' : Turn)
    (hturns : s'.turns = s.turns.set j t') (hpending : s'.pending = s.pending) (hsent : s'.sent = s.sent)
    (htold : t'.told = t.told) (hrun' : t'.run = some s.accepted) :
    (∃ i, s'.Orphan i) ↔ (∃ i, s.Orphan i) ∨ ¬∀ t ∈ s.turns[j]?, t.told = none := by
  by_cases hnone : t.told = none
  · have hsound : ∀ t ∈ s.turns[j]?, t.told = none := fun u hu => by
      obtain rfl := Option.some.inj (ht.symm.trans hu)
      exact hnone
    rw [or_iff_left fun hnot => hnot hsound]
    exact exists_congr fun i =>
      orphan_set ht t' hturns hpending hsent htold (Or.inr hnone) fun run hr => by rw [hrun] at hr; cases hr
  · exact iff_of_true ⟨j, h.orphan_accepted ht hrun hnone t' hturns hpending hsent htold hrun'⟩
      (Or.inr fun hsound => hnone (hsound t ht))

theorem Kept.orphans_stop (h : Kept s) (horphan : ∀ i, s'.Orphan i ↔ s.stop.Orphan i) :
    (∃ i, s'.Orphan i) ↔ (∃ i, s.Orphan i) ∨ ¬s.Sound .submit := by
  have hunsound : ¬s.Sound .submit ↔
      ∃ i t, s.current = some (i, t) ∧ t.stage = .posting (some true) ∧ t.told = none ∧ t.ended = false := by
    constructor
    · intro hnot
      by_contra hnone
      refine hnot fun c hc hstage htold => ?_
      by_contra hended
      exact hnone ⟨c.1, c.2, hc, hstage, htold, by simpa using hended⟩
    · rintro ⟨i, t, hcurrent, hstage, htold, hended⟩ hsound
      have htrue := hsound (i, t) hcurrent hstage htold
      rw [hended] at htrue
      cases htrue
  rw [hunsound, ← exists_or]
  exact exists_congr fun i => (horphan i).trans h.orphan_stop

theorem orphan_send {k : Nat} (hrun : s.pending[k]? = some run) :
    ({ s with pending := s.pending.eraseIdx k, sent := s.sent ++ [run] } : VoiceTurnRunner).Orphan i ↔ s.Orphan i := by
  have hfree (r : Nat) : r ∉ s.pending.eraseIdx k ∧ r ∉ s.sent ++ [run] ↔ r ∉ s.pending ∧ r ∉ s.sent := by
    constructor
    · rintro ⟨hpending, hsent⟩
      refine ⟨fun hmem => ?_, fun hmem => hsent (mem_append_left _ hmem)⟩
      obtain ⟨l, hl⟩ := List.getElem?_of_mem hmem
      by_cases hlk : l = k
      · rw [hlk, hrun] at hl
        exact hsent (mem_append_right _ (by simp [Option.some.inj hl]))
      · exact hpending (mem_eraseIdx_iff_getElem?.mpr ⟨l, hlk, hl⟩)
    · rintro ⟨hpending, hsent⟩
      refine ⟨fun hmem => hpending (mem_of_mem_eraseIdx hmem), fun hmem => ?_⟩
      obtain hmem | hmem := mem_append.mp hmem
      · exact hsent hmem
      · rw [mem_singleton.mp hmem] at hpending
        exact hpending (mem_of_getElem? hrun)
  simp only [orphan_iff, hfree]

theorem Kept.orphans_step (h : Kept s) (a : VoiceStep) (ha : s.step a = some s') :
    (∃ i, s'.Orphan i) ↔ (∃ i, s.Orphan i) ∨ ¬s.Sound a := by
  cases a with
  | submit =>
    obtain rfl := Option.some.inj ha
    exact h.orphans_stop fun i => orphan_submit
  | cancel =>
    obtain rfl := Option.some.inj ha
    exact h.orphans_stop fun i => orphan_cancel
  | start j =>
    obtain ⟨t, ht, ha⟩ := Option.bind_eq_some_iff.mp ha
    split at ha
    · obtain rfl := Option.some.inj ha
      exact orphans_of_iff trivial fun i => orphan_set ht _ rfl rfl rfl rfl (Or.inl rfl) fun _ hr => hr
    · cases ha
  | serve j accepts =>
    obtain ⟨t, ht, ha⟩ := Option.bind_eq_some_iff.mp ha
    split at ha
    · rename_i hstage
      obtain rfl := Option.some.inj ha
      cases accepts with
      | true =>
        exact h.orphans_accepted ht ((h.fine j t ht).unknown (Or.inr (Or.inl hstage)))
          { t with stage := .posting (some true), run := some s.accepted } rfl rfl rfl rfl rfl
      | false => exact orphans_of_iff trivial fun i => orphan_set ht _ rfl rfl rfl rfl (Or.inl rfl) fun _ hr => hr
    · cases ha
  | arrive j =>
    obtain ⟨t, ht, ha⟩ := Option.bind_eq_some_iff.mp ha
    split at ha
    · rename_i hadrift
      obtain rfl := Option.some.inj ha
      exact h.orphans_accepted ht ((h.fine j t ht).adrift hadrift).2
        { t with run := some s.accepted, adrift := false } rfl rfl rfl rfl rfl
    · cases ha
  | endRun j =>
    obtain ⟨t, ht, ha⟩ := Option.bind_eq_some_iff.mp ha
    split at ha
    · obtain rfl := Option.some.inj ha
      exact orphans_of_iff trivial fun i => orphan_set ht _ rfl rfl rfl rfl (Or.inl rfl) fun _ hr => hr
    · cases ha
  | reply j answered =>
    obtain ⟨t, ht, ha⟩ := Option.bind_eq_some_iff.mp ha
    have hclose {s' : VoiceTurnRunner} (hpending : s'.pending = s.pending) (hsent : s'.sent = s.sent) (t' : Turn)
        (hturns : s'.turns = s.turns.set j t') (htold : t'.told = t.told) (hrun : t'.run = t.run) : (∃ i, s'.Orphan i) ↔ (∃ i, s.Orphan i) ∨ ¬s.Sound (.reply j answered) :=
      orphans_of_iff trivial fun i =>
        orphan_set ht t' hturns hpending hsent htold (Or.inl hrun) fun _ hr => hrun.trans hr
    split at ha
    · split at ha
      · unfold VoiceTurnRunner.reply at ha
        split at ha
        · split at ha
          all_goals obtain rfl := Option.some.inj ha
          all_goals exact hclose rfl rfl _ rfl rfl rfl
        · obtain rfl := Option.some.inj ha
          exact hclose rfl rfl _ rfl rfl rfl
        · split at ha
          · cases ha
          · obtain rfl := Option.some.inj ha
            exact hclose rfl rfl _ rfl rfl rfl
      · cases ha
    · cases ha
  | narrate j =>
    obtain ⟨t, ht, ha⟩ := Option.bind_eq_some_iff.mp ha
    split at ha
    · split at ha
      · obtain rfl := Option.some.inj ha
        exact orphans_of_iff trivial fun i => Iff.rfl
      · cases ha
    · cases ha
  | finish j aloud =>
    obtain ⟨t, ht, ha⟩ := Option.bind_eq_some_iff.mp ha
    split at ha
    · split at ha
      · obtain rfl := Option.some.inj ha
        refine orphans_of_iff trivial fun i => ?_
        cases aloud with
        | true => exact orphan_set ht _ rfl rfl rfl rfl (Or.inl rfl) fun _ hr => hr
        | false => exact orphan_set ht _ rfl rfl rfl rfl (Or.inl rfl) fun _ hr => hr
      · cases ha
    · cases ha
  | deliver j =>
    obtain ⟨t, ht, ha⟩ := Option.bind_eq_some_iff.mp ha
    split at ha
    · unfold VoiceTurnRunner.deliver at ha
      split at ha
      case h_5 => cases ha
      all_goals
        obtain rfl := Option.some.inj ha
        exact orphans_of_iff trivial fun i => orphan_set ht _ rfl rfl rfl rfl (Or.inl rfl) fun _ hr => hr
    · cases ha
  | send k =>
    obtain ⟨run, hrun, ha⟩ := Option.map_eq_some_iff.mp ha
    subst ha
    exact orphans_of_iff trivial fun i => orphan_send hrun

theorem Kept.orphans_run (steps : List VoiceStep) : ∀ {s s' : VoiceTurnRunner}, Kept s →
    Machine.exec VoiceTurnRunner.step s steps = some s' →
      ((∃ i, s'.Orphan i) ↔ (∃ i, s.Orphan i) ∨ ¬Machine.Along VoiceTurnRunner.step Sound s steps) := by
  induction steps with
  | nil =>
    intro s s' _ hs
    obtain rfl := Option.some.inj hs
    exact (or_iff_left fun hnot => hnot trivial).symm
  | cons a steps ih =>
    intro s s'' h hs
    obtain ⟨s', ha, hs⟩ := Machine.exec_cons hs
    have halong : Machine.Along VoiceTurnRunner.step Sound s (a :: steps) ↔
        s.Sound a ∧ Machine.Along VoiceTurnRunner.step Sound s' steps := by
      rw [Machine.along_cons, ha]
      rfl
    rw [ih (h.step a ha) hs, h.orphans_step a ha, halong, not_and_or, or_assoc]

theorem Kept.initial : Kept {} := by
  refine ⟨by simp, by simp, by simp, by simp, by simp, fun run => ?_, by simp, by simp⟩
  simp [Follows]

theorem Kept.cancel_iff (h : Kept s) : s.cancel.1 = true ↔ ∃ t, s.turns.getLast? = some t ∧ t.stage ≠ .over := by
  have hfirst : s.cancel.1 = true ↔ s.current.isSome = true := by
    unfold VoiceTurnRunner.cancel
    split
    · rename_i hcurrent
      exact iff_of_true rfl hcurrent
    · rename_i hcurrent
      exact iff_of_false (by simp) hcurrent
  rw [hfirst, Option.isSome_iff_exists, List.getLast?_eq_getElem?]
  constructor
  · rintro ⟨⟨i, t⟩, hcurrent⟩
    obtain ⟨htask, ht, hover⟩ := current_eq_some.mp hcurrent
    have hlength := h.task i htask
    exact ⟨t, by rw [← hlength]; exact ht, hover⟩
  · rintro ⟨t, ht, hover⟩
    cases htask : s.task with
    | none =>
      rw [h.empty htask] at ht
      cases ht
    | some i =>
      have hlength := h.task i htask
      rw [← hlength] at ht
      exact ⟨(i, t), current_eq_some.mpr ⟨htask, ht, hover⟩⟩

/-- A run of a question that was stopped before the run had ended is cancelled, if and only if no question is
stopped between its acceptance and the answer, or accepted once it has been stopped. In every run, whoever is
not the last is told to stop, what is silenced says nothing, one question is followed, and `cancel` says
whether the last one is open. -/
theorem questions_stopped (steps : List VoiceStep) (s : VoiceTurnRunner) (h : Machine.exec step {} steps = some s) :
    ((∀ (i : Nat) (t : Turn) run, s.turns[i]? = some t → t.told = some false → t.run = some run →
        run ∈ s.pending ∨ run ∈ s.sent) ↔
        Machine.Along step Sound {} steps) ∧
      (∀ run ∈ s.pending, ∃ k s', s.step (.send k) = some s' ∧ run ∈ s'.sent) ∧
      (∀ (i : Nat) (t : Turn), s.turns[i]? = some t → i < s.silenced → t.stage ≠ .over → t.told.isSome) ∧
      (∀ x ∈ s.spoken, x.2 ≤ x.1) ∧
      (∀ i j r r', s.Follows i r → s.Follows j r' → i = j) ∧
      (s.cancel.1 = true ↔ ∃ t, s.turns.getLast? = some t ∧ t.stage ≠ .over) := by
  have hkept : Kept s := Machine.invariant (fun _ a _ h ha => Kept.step h a ha) Kept.initial h
  have hnone : ¬∃ i, ({} : VoiceTurnRunner).Orphan i := by
    rintro ⟨i, hi⟩
    obtain ⟨t, run, ht, -⟩ := orphan_iff.mp hi
    simp at ht
  have horphans := Kept.initial.orphans_run steps h
  rw [or_iff_right hnone] at horphans
  refine ⟨?_, fun run hrun => ?_, fun i t ht hlt hover => ?_, hkept.spoken, fun i j r r' hi hj => ?_, hkept.cancel_iff⟩
  · rw [← not_iff_not, ← horphans]
    constructor
    · intro hnot
      push Not at hnot
      obtain ⟨i, t, run, ht, htold, hrun, hfree⟩ := hnot
      exact ⟨i, orphan_iff.mpr ⟨t, run, ht, htold, hrun, hfree⟩⟩
    · rintro ⟨i, hi⟩ hall
      obtain ⟨t, run, ht, htold, hrun, hpending, hsent⟩ := orphan_iff.mp hi
      exact (hall i t run ht htold hrun).elim hpending hsent
  · obtain ⟨k, hk⟩ := List.getElem?_of_mem hrun
    exact ⟨k, _, congrArg (Option.map _) hk, mem_append_right _ mem_cons_self⟩
  · by_contra htold
    have hlast := (hkept.last i t ht hover (by simpa using htold)).2
    omega
  · obtain ⟨t, ht, hstage, htold⟩ := hi
    obtain ⟨u, hu, hstage', htold'⟩ := hj
    exact hkept.open_unique ht (by simp [hstage]) htold hu (by simp [hstage']) htold'

/-- A second question comes while the first one's run is followed; its request is sent, and the user stops
the second before it has been posted. -/
def followedQuestion : List VoiceStep :=
  [.submit, .start 0, .serve 0 true, .reply 0 true, .narrate 0, .submit, .deliver 0, .send 0, .cancel, .deliver 1]

theorem questions_stopped_followedQuestion : ∃ s, Machine.exec step {} followedQuestion = some s ∧
    (∀ (i : Nat) (t : Turn) run, s.turns[i]? = some t → t.told = some false → t.run = some run →
        run ∈ s.pending ∨ run ∈ s.sent) ∧
      (∀ x ∈ s.spoken, x.2 ≤ x.1) ∧ (∀ i j r r', s.Follows i r → s.Follows j r' → i = j) := by
  have hrun : (Machine.exec step {} followedQuestion).isSome = true := by decide
  obtain ⟨s, hs⟩ := Option.isSome_iff_exists.mp hrun
  obtain ⟨hcancelled, -, -, hspoken, hfollows, -⟩ := questions_stopped followedQuestion s hs
  exact ⟨s, hs, hcancelled.mpr (by decide), hspoken, hfollows⟩

/-- The first question is still being posted; or the answer with its run is on the way. -/
theorem question_not_stopped :
    (∃ s ∈ Machine.exec step {} [.submit, .start 0, .submit, .deliver 0, .arrive 0], s.Orphan 0) ∧
      ∃ s ∈ Machine.exec step {} [.submit, .start 0, .serve 0 true, .cancel, .deliver 0], s.Orphan 0 := by
  decide

end VoiceTurnRunner
end SelericSwarm.Voice
