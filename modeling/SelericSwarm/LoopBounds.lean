import SelericSwarm.AgentLoop

/-! What every run of the validated loop keeps to: the number of agent runs, the budget,
the last event before a result, and what the stream has shown by then. -/
open List

namespace SelericSwarm.Agent
open Keyed

namespace LoopEvent

def isRun : LoopEvent → Bool
  | .ran _ => true
  | _ => false

def isReset : LoopEvent → Bool
  | .streamed kind _ => kind = "reset"
  | _ => false

def isRejection : LoopEvent → Bool
  | .validated _ outcome => !outcome.ok && outcome.rejected
  | _ => false

/-- What a client shows that appends deltas and clears at a reset. -/
def shown (text : String) : LoopEvent → String
  | .streamed kind suffix => if kind = "reset" then "" else text ++ suffix
  | _ => text

def answer (last : Option MissionResult) : LoopEvent → Option MissionResult
  | .returned result => some result
  | _ => last

end LoopEvent

/-- The partial outputs and the result only ever grow. -/
def AgentRun.Grows (run : AgentRun) : Prop :=
  ∀ result, run.ending = .finished result →
    (run.partials.map (fun item => (item.getD "").toList) ++ [result.finalResponse.toList]).IsChain (· <+: ·)

/-- One run and what follows it, before the next. -/
def OneRun (events : List LoopEvent) : Prop :=
  ∃ prompt rest, events = .ran prompt :: rest ∧ ∀ e ∈ rest, e.isRun = false ∧ e.isReset = false

theorem deltas_prefix {final : List Char} : ∀ (partials : List (Option String)) (text : List Char),
    ((text :: partials.map fun item => (item.getD "").toList) ++ [final]).IsChain (· <+: ·) →
      text ++ ((deltas text.length partials).map String.toList).flatten <+: final := by
  intro partials
  induction partials with
  | nil =>
    intro text h
    simpa [deltas] using h
  | cons item partials ih =>
    intro text h
    rw [map_cons, cons_append, cons_append, isChain_cons_cons] at h
    obtain ⟨⟨suffix, hsuffix⟩, hrest⟩ := h
    have hnext := ih (item.getD "").toList hrest
    have hlength : (item.getD "").length = text.length + suffix.length := by
      rw [← String.length_toList, ← hsuffix, length_append]
    by_cases hlt : text.length < (item.getD "").length
    · rw [deltas]
      simp only [hlt, if_true, map_cons, flatten_cons, String.toList_ofList]
      rw [← hsuffix, drop_left, ← append_assoc, hsuffix]
      rwa [String.length_toList] at hnext
    · have hnil : suffix = [] := length_eq_zero_iff.mp (by omega)
      rw [hnil, append_nil] at hsuffix
      rw [deltas]
      simp only [hlt, if_false]
      rwa [← hsuffix] at hnext

section Loop
variable (b : Behaviour) (deps : Deps) (query : String) (streaming : Bool)

/-- What one call leaves in the log: the run, its deltas and, unless it raises, what it
returns; the result's validation comes last. -/
theorem attempt_log (n : Nat) (prompt : String) : ∃ tail,
    (attempt b deps streaming n prompt).2 = .ran prompt :: passedOn streaming (b.run deps n prompt) ++ tail ∧
      match (attempt b deps streaming n prompt).1 with
      | .raised => tail = [] ∨ ∃ result, tail = [.returned result]
      | .limited result => tail = [.returned result] ∧ result.errorCode = some "EXECUTION_LIMIT_EXCEEDED"
      | .validated result outcome => tail = [.returned result, .validated result outcome] := by
  unfold attempt
  cases hr : runAgent b deps streaming n prompt with
  | mk result events =>
    cases result with
    | none =>
      refine ⟨[], ?_, Or.inl rfl⟩
      unfold runAgent at hr
      dsimp only at hr
      split at hr
      · cases hr
      · cases hr
      · obtain ⟨-, rfl⟩ := Prod.mk.inj hr
        simp
    | some result =>
      have hevents : events =
          .ran prompt :: passedOn streaming (b.run deps n prompt) ++ [.returned result] := by
        unfold runAgent at hr
        dsimp only at hr
        split at hr
        · obtain ⟨hresult, rfl⟩ := Prod.mk.inj hr
          rw [← Option.some.inj hresult]
        · obtain ⟨hresult, rfl⟩ := Prod.mk.inj hr
          rw [← Option.some.inj hresult]
        · cases hr
      dsimp only
      split
      next hlimit => exact ⟨[.returned result], hevents, rfl, hlimit⟩
      · cases hv : b.validate n result with
        | none => exact ⟨[.returned result], hevents, Or.inr ⟨result, rfl⟩⟩
        | some outcome => exact ⟨[.returned result, .validated result outcome], by simp [hevents], rfl⟩

theorem mem_passedOn {run : AgentRun} {e : LoopEvent} (h : e ∈ passedOn streaming run) :
    ∃ text, e = .streamed "delta" text := by
  unfold passedOn at h
  split at h
  · obtain ⟨text, -, rfl⟩ := List.mem_map.mp h
    exact ⟨text, rfl⟩
  · cases h

theorem oneRun_attempt (n : Nat) (prompt : String) : OneRun (attempt b deps streaming n prompt).2 := by
  obtain ⟨tail, hlog, htail⟩ := attempt_log b deps streaming n prompt
  refine ⟨prompt, passedOn streaming (b.run deps n prompt) ++ tail, hlog, ?_⟩
  have hquiet : ∀ e ∈ tail, e.isRun = false ∧ e.isReset = false := by
    cases hc : (attempt b deps streaming n prompt).1 with
    | raised =>
      rw [hc] at htail
      obtain rfl | ⟨result, rfl⟩ := htail
      · simp
      · simp [LoopEvent.isRun, LoopEvent.isReset]
    | limited result =>
      rw [hc] at htail
      obtain ⟨rfl, -⟩ := htail
      simp [LoopEvent.isRun, LoopEvent.isReset]
    | validated result outcome =>
      rw [hc] at htail
      obtain rfl := htail
      simp [LoopEvent.isRun, LoopEvent.isReset]
  intro e he
  obtain he | he := mem_append.mp he
  · obtain ⟨text, rfl⟩ := mem_passedOn streaming he
    exact ⟨rfl, by simp [LoopEvent.isReset]⟩
  · exact hquiet e he

/-- The loop runs the agent again and again, each time after one reset and at the cost of one revision. -/
theorem revise_log (n : Nat) (result : MissionResult) (outcome : ValidationOutcome)
    (tracker : ExecutionBudgetTracker) : ∃ later : List (List LoopEvent),
      (revise b deps query streaming n result outcome tracker).log =
        (later.map (resets streaming ++ ·)).flatten ∧
      (∀ events ∈ later, OneRun events) ∧
      later.length ≤ (tracker.limits.maxValidationRevisions - tracker.used .validationRevisions).toNat ∧
      (revise b deps query streaming n result outcome tracker).tracker.used .validationRevisions =
        tracker.used .validationRevisions + later.length := by
  fun_induction revise b deps query streaming n result outcome tracker with
  | case1 | case2 | case6 => exact ⟨[], by simp⟩
  | case3 n result outcome tracker hok hrejected hbudget tracker' events log hattempt
  | case4 n result outcome tracker hok hrejected hbudget tracker' events log limited hattempt =>
    obtain ⟨hle, hused, -⟩ := consume_used hbudget
    have hone := oneRun_attempt b deps streaming (n + 1) (revisionPrompt query outcome)
    rw [hattempt] at hone
    refine ⟨[events], by simp [log], by simpa using hone, ?_, hused⟩
    have hbound : tracker.limits.bound .validationRevisions = tracker.limits.maxValidationRevisions := rfl
    simp only [length_singleton]
    omega
  | case5 n result outcome tracker hok hrejected hbudget tracker' events log result' outcome' rest hattempt ih =>
    obtain ⟨hle, hused, hlimits⟩ := consume_used hbudget
    obtain ⟨later, hlog, hruns, hlength, htracker⟩ := ih
    have hone := oneRun_attempt b deps streaming (n + 1) (revisionPrompt query outcome)
    rw [hattempt] at hone
    have hbound : tracker.limits.bound .validationRevisions = tracker.limits.maxValidationRevisions := rfl
    have hused' : tracker'.used .validationRevisions = tracker.used .validationRevisions + 1 := hused
    have hlimits' : tracker'.limits = tracker.limits := hlimits
    refine ⟨events :: later, ?_, ?_, ?_, ?_⟩
    · simp [log, rest, hlog]
    · simpa using ⟨hone, hruns⟩
    · rw [hlimits', hused'] at hlength
      simp only [length_cons]
      omega
    · rw [length_cons]
      rw [show rest.tracker = (revise b deps query streaming (n + 1) result' outcome' tracker').tracker from rfl]
      omega

/-- What the loop has logged last when it returns: a validation that has passed, a result at
the limits, or a validation that has not passed. -/
def EndsWith (log : List LoopEvent) (result : MissionResult) : Prop :=
  (∃ (before : List LoopEvent) (outcome : ValidationOutcome),
      log = before ++ [.validated result outcome] ∧ outcome.ok = true) ∨
    (∃ before : List LoopEvent, log = before ++ [.returned result] ∧
      result.errorCode = some "EXECUTION_LIMIT_EXCEEDED") ∨
    ∃ (before : List LoopEvent) (last : MissionResult) (outcome : ValidationOutcome),
      log = before ++ [.validated last outcome] ∧ outcome.ok = false ∧ result = last.insufficient

variable {result r : MissionResult} {prompt : String} {events : List LoopEvent}

theorem EndsWith.append {log : List LoopEvent} (h : EndsWith log result) (before : List LoopEvent) :
    EndsWith (before ++ log) result := by
  obtain ⟨init, outcome, rfl, hok⟩ | ⟨init, rfl, hlimit⟩ | ⟨init, last, outcome, rfl, hok, he⟩ := h
  · exact Or.inl ⟨before ++ init, outcome, by simp, hok⟩
  · exact Or.inr (Or.inl ⟨before ++ init, by simp, hlimit⟩)
  · exact Or.inr (Or.inr ⟨before ++ init, last, outcome, by simp, hok, he⟩)

theorem attempt_endsWith {n : Nat} (h : attempt b deps streaming n prompt = (.limited result, events)) :
    EndsWith events result := by
  obtain ⟨tail, hlog, htail⟩ := attempt_log b deps streaming n prompt
  rw [h] at hlog htail
  obtain ⟨rfl, hlimit⟩ := htail
  exact Or.inr (Or.inl ⟨_, hlog, hlimit⟩)

theorem attempt_validated {n : Nat} {outcome : ValidationOutcome}
    (h : attempt b deps streaming n prompt = (.validated result outcome, events)) :
    events = .ran prompt :: passedOn streaming (b.run deps n prompt) ++ [.returned result] ++
      [.validated result outcome] := by
  obtain ⟨tail, hlog, htail⟩ := attempt_log b deps streaming n prompt
  rw [h] at hlog htail
  obtain rfl := htail
  exact hlog.trans (by simp)

theorem revise_endsWith (n : Nat) (result : MissionResult) (outcome : ValidationOutcome)
    (tracker : ExecutionBudgetTracker)
    (h : (revise b deps query streaming n result outcome tracker).result = some r) :
    EndsWith (.validated result outcome :: (revise b deps query streaming n result outcome tracker).log) r := by
  fun_induction revise b deps query streaming n result outcome tracker with
  | case1 n result outcome tracker hok =>
    obtain rfl := Option.some.inj h
    exact Or.inl ⟨[], outcome, rfl, hok⟩
  | case2 n result outcome tracker hok | case6 n result outcome tracker hok =>
    obtain rfl := Option.some.inj h
    exact Or.inr (Or.inr ⟨[], result, outcome, rfl, by simpa using hok, rfl⟩)
  | case3 => cases h
  | case4 n result outcome tracker hok hrejected hbudget tracker' events log limited hattempt =>
    obtain rfl := Option.some.inj h
    exact (attempt_endsWith b deps streaming hattempt).append (.validated result outcome :: resets streaming)
  | case5 n result outcome tracker hok hrejected hbudget tracker' events log result' outcome' rest hattempt ih =>
    have hlast := (ih h).append (.validated result outcome :: resets streaming ++
      (.ran (revisionPrompt query outcome) ::
        passedOn streaming (b.run deps (n + 1) (revisionPrompt query outcome)) ++ [.returned result']))
    simpa [log, attempt_validated b deps streaming hattempt] using hlast

/-- A call logs no rejection before the validation it ends with. -/
theorem attempt_quiet {n : Nat} {prompt : String} {checked : Checked} {events : List LoopEvent}
    (h : attempt b deps streaming n prompt = (checked, events)) :
    ∃ quiet : List LoopEvent, (∀ e ∈ quiet, e.isRejection = false) ∧
      events = quiet ++ match checked with
        | .validated result outcome => [.validated result outcome]
        | _ => [] := by
  have hquiet : ∀ answers : List MissionResult,
      ∀ e ∈ LoopEvent.ran prompt :: passedOn streaming (b.run deps n prompt) ++ answers.map LoopEvent.returned,
        e.isRejection = false := by
    intro answers e he
    simp only [cons_append, mem_cons, mem_append, List.mem_map] at he
    obtain rfl | he | ⟨answer, -, rfl⟩ := he
    · rfl
    · obtain ⟨text, rfl⟩ := mem_passedOn streaming he
      rfl
    · rfl
  obtain ⟨tail, hlog, htail⟩ := attempt_log b deps streaming n prompt
  rw [h] at hlog htail
  cases checked with
  | raised =>
    obtain rfl | ⟨answer, rfl⟩ := htail
    · exact ⟨_, hquiet [], hlog.trans (by simp)⟩
    · exact ⟨_, hquiet [answer], hlog.trans (by simp)⟩
  | limited result =>
    obtain ⟨rfl, -⟩ := htail
    exact ⟨_, hquiet [result], hlog.trans (by simp)⟩
  | validated result outcome =>
    obtain rfl := htail
    exact ⟨_, hquiet [result], hlog.trans (by simp)⟩

theorem resets_quiet : ∀ e ∈ resets streaming, e.isRejection = false := by
  unfold resets
  split <;> simp [LoopEvent.isRejection]

theorem revise_rejection_last (n : Nat) (result : MissionResult) (outcome : ValidationOutcome)
    (tracker : ExecutionBudgetTracker) :
    ∀ e ∈ (LoopEvent.validated result outcome ::
      (revise b deps query streaming n result outcome tracker).log).dropLast, e.isRejection = false := by
  fun_induction revise b deps query streaming n result outcome tracker with
  | case1 | case2 | case6 => simp
  | case3 n result outcome tracker hok hrejected hbudget tracker' events log hattempt
  | case4 n result outcome tracker hok hrejected hbudget tracker' events log limited hattempt =>
    intro e he
    obtain ⟨quiet, hquiet, hevents⟩ := attempt_quiet b deps streaming hattempt
    rw [show log = resets streaming ++ quiet by simp [log, hevents]] at he
    obtain rfl | he := mem_cons.mp (dropLast_subset _ he)
    · simp [LoopEvent.isRejection, hrejected]
    · exact (mem_append.mp he).elim (resets_quiet streaming e) (hquiet e)
  | case5 n result outcome tracker hok hrejected hbudget tracker' events log result' outcome' rest hattempt ih =>
    intro e he
    obtain ⟨quiet, hquiet, hevents⟩ := attempt_quiet b deps streaming hattempt
    have hsplit : LoopEvent.validated result outcome :: (log ++ rest.log) =
        (LoopEvent.validated result outcome :: resets streaming ++ quiet) ++
          .validated result' outcome' :: rest.log := by
      simp [log, hevents]
    rw [hsplit, dropLast_append_of_ne_nil (by simp)] at he
    obtain he | he := mem_append.mp he
    · obtain rfl | he := mem_cons.mp he
      · simp [LoopEvent.isRejection, hrejected]
      · exact (mem_append.mp he).elim (resets_quiet streaming e) (hquiet e)
    · exact ih e he

/-! What the stream shows. -/

/-- The text shown is part of the agent's last answer, which is returned as it is or, where the
loop fails closed, without the blanks around it. At the limits there is a text of its own. -/
def Shows (deps : Deps) (text : String) (last result : MissionResult) : Prop :=
  (∃ prompt steps, result = limitResult deps prompt steps) ∨
    text.toList <+: last.finalResponse.toList ∧
      (result = last ∨ result.errorCode = some "INSUFFICIENT_EVIDENCE" ∧
        result.finalResponse = if isBlank last.finalResponse then unbacked else strip last.finalResponse)

theorem foldl_shown_deltas (texts : List String) : ∀ text : String,
    ((texts.map (LoopEvent.streamed "delta")).foldl LoopEvent.shown text).toList =
      text.toList ++ (texts.map String.toList).flatten := by
  induction texts with
  | nil => simp
  | cons t texts ih =>
    intro text
    rw [map_cons, foldl_cons, ih, map_cons, flatten_cons, ← append_assoc]
    simp [LoopEvent.shown]

theorem shown_passedOn {run : AgentRun} (hgrows : run.Grows) (h : run.ending = .finished result) :
    ((passedOn true run).foldl LoopEvent.shown "").toList <+: result.finalResponse.toList := by
  have hchain := hgrows result h
  have hfirst : (([] :: run.partials.map fun item => (item.getD "").toList) ++
      [result.finalResponse.toList]).IsChain (· <+: ·) := by
    cases hp : run.partials with
    | nil => simp
    | cons item partials => exact isChain_cons_cons.mpr ⟨List.nil_prefix, by simpa [hp] using hchain⟩
  rw [passedOn, if_pos rfl, foldl_shown_deltas]
  simpa using deltas_prefix run.partials [] hfirst

theorem foldl_answer_passedOn (run : AgentRun) (last : Option MissionResult) :
    (passedOn streaming run).foldl LoopEvent.answer last = last := by
  have hquiet : ∀ e ∈ passedOn streaming run, ∀ last, LoopEvent.answer last e = last := by
    intro e he last
    obtain ⟨text, rfl⟩ := mem_passedOn streaming he
    rfl
  generalize passedOn streaming run = events at hquiet
  induction events with
  | nil => rfl
  | cons e events ih =>
    rw [foldl_cons, hquiet e (by simp)]
    exact ih fun e he => hquiet e (by simp [he])

theorem limitResult_errorCode (prompt : String) (steps : Json) :
    (limitResult deps prompt steps).errorCode = some "EXECUTION_LIMIT_EXCEEDED" := rfl

theorem attempt_result {n : Nat} {checked : Checked} (h : attempt b deps streaming n prompt = (checked, events)) :
    (∀ result outcome, checked = .validated result outcome → ∃ answer,
      (b.run deps n prompt).ending = .finished answer ∧ result.finalResponse = answer.finalResponse) ∧
    ∀ result, checked = .limited result → (∃ steps, result = limitResult deps prompt steps) ∨
      ∃ answer, (b.run deps n prompt).ending = .finished answer ∧
        result.finalResponse = answer.finalResponse := by
  unfold attempt runAgent at h
  dsimp only at h
  cases hend : (b.run deps n prompt).ending with
  | finished answer =>
    rw [hend] at h
    dsimp only at h
    split at h
    · obtain ⟨rfl, -⟩ := Prod.mk.inj h
      refine ⟨by rintro result outcome ⟨⟩, ?_⟩
      rintro result ⟨⟩
      exact Or.inr ⟨answer, rfl, rfl⟩
    · split at h
      · obtain ⟨rfl, -⟩ := Prod.mk.inj h
        exact ⟨by rintro result outcome ⟨⟩, by rintro result ⟨⟩⟩
      · obtain ⟨rfl, -⟩ := Prod.mk.inj h
        refine ⟨?_, by rintro result ⟨⟩⟩
        rintro result outcome ⟨⟩
        exact ⟨answer, rfl, rfl⟩
  | exceeded =>
    rw [hend] at h
    dsimp only at h
    rw [if_pos (limitResult_errorCode deps prompt _)] at h
    obtain ⟨rfl, -⟩ := Prod.mk.inj h
    refine ⟨by rintro result outcome ⟨⟩, ?_⟩
    rintro result ⟨⟩
    exact Or.inl ⟨_, rfl⟩
  | raised =>
    rw [hend] at h
    obtain ⟨rfl, -⟩ := Prod.mk.inj h
    exact ⟨by rintro result outcome ⟨⟩, by rintro result ⟨⟩⟩

/-- After a call the text shown is part of what the call returns, or the budget is used up. -/
def Fits (deps : Deps) (text : String) (result : MissionResult) : Prop :=
  (∃ prompt steps, result = limitResult deps prompt steps) ∨ text.toList <+: result.finalResponse.toList

theorem attempt_shown {n : Nat} (hgrows : (b.run deps n prompt).Grows) (last : Option MissionResult) :
    (∀ result outcome, attempt b deps true n prompt = (.validated result outcome, events) →
      events.foldl LoopEvent.answer last = some result ∧
        (events.foldl LoopEvent.shown "").toList <+: result.finalResponse.toList) ∧
    ∀ result, attempt b deps true n prompt = (.limited result, events) →
      events.foldl LoopEvent.answer last = some result ∧
        Fits deps (events.foldl LoopEvent.shown "") result := by
  have hshown : ∀ tail : List LoopEvent, (∀ e ∈ tail, ∀ text, LoopEvent.shown text e = text) →
      (LoopEvent.ran prompt :: passedOn true (b.run deps n prompt) ++ tail).foldl LoopEvent.shown "" =
        (passedOn true (b.run deps n prompt)).foldl LoopEvent.shown "" := by
    intro tail htail
    rw [foldl_append, foldl_cons]
    exact List.foldlRecOn (motive := fun text => text = _) tail _ rfl
      fun text ih e he => (htail e he text).trans ih
  obtain ⟨tail, hlog, htail⟩ := attempt_log b deps true n prompt
  refine ⟨?_, ?_⟩
  · intro result outcome h
    rw [h] at hlog htail
    obtain rfl := htail
    have hlog : events = _ := hlog
    obtain ⟨answer, hend, hsame⟩ := (attempt_result b deps true h).1 result outcome rfl
    rw [hlog, hshown _ (by simp [LoopEvent.shown]), hsame]
    refine ⟨?_, shown_passedOn hgrows hend⟩
    simp [foldl_answer_passedOn, LoopEvent.answer]
  · intro result h
    rw [h] at hlog htail
    obtain ⟨rfl, -⟩ := htail
    have hlog : events = _ := hlog
    rw [hlog, hshown _ (by simp [LoopEvent.shown])]
    refine ⟨by simp [foldl_answer_passedOn, LoopEvent.answer], ?_⟩
    obtain ⟨steps, rfl⟩ | ⟨answer, hend, hsame⟩ := (attempt_result b deps true h).2 result rfl
    · exact Or.inl ⟨prompt, steps, rfl⟩
    · rw [Fits, hsame]
      exact Or.inr (shown_passedOn hgrows hend)

theorem Fits.shows {deps : Deps} {text : String} (h : Fits deps text result) : Shows deps text result result := by
  obtain h | h := h
  · exact Or.inl h
  · exact Or.inr ⟨h, Or.inl rfl⟩

theorem foldl_answer_resets (last : Option MissionResult) (events : List LoopEvent) :
    (resets true ++ events).foldl LoopEvent.answer last = events.foldl LoopEvent.answer last := rfl

theorem foldl_shown_resets (text : String) (events : List LoopEvent) :
    (resets true ++ events).foldl LoopEvent.shown text = events.foldl LoopEvent.shown "" := by
  rw [foldl_append]
  rfl

theorem revise_shows (hgrows : ∀ n prompt, (b.run deps n prompt).Grows) (n : Nat) (result : MissionResult)
    (outcome : ValidationOutcome) (tracker : ExecutionBudgetTracker) {text : String}
    (htext : text.toList <+: result.finalResponse.toList)
    (h : (revise b deps query true n result outcome tracker).result = some r) :
    ∃ last, (revise b deps query true n result outcome tracker).log.foldl LoopEvent.answer (some result) =
        some last ∧
      Shows deps ((revise b deps query true n result outcome tracker).log.foldl LoopEvent.shown text) last r := by
  fun_induction revise b deps query true n result outcome tracker generalizing text with
  | case1 n result outcome tracker hok =>
    obtain rfl := Option.some.inj h
    exact ⟨result, rfl, Or.inr ⟨htext, Or.inl rfl⟩⟩
  | case2 n result outcome tracker hok | case6 n result outcome tracker hok =>
    obtain rfl := Option.some.inj h
    exact ⟨result, rfl, Or.inr ⟨htext, Or.inr ⟨rfl, rfl⟩⟩⟩
  | case3 => cases h
  | case4 n result outcome tracker hok hrejected hbudget tracker' events log limited =>
    rename_i hattempt
    obtain rfl := Option.some.inj h
    obtain ⟨hanswer, hfits⟩ := (attempt_shown b deps (hgrows _ _) (some result)).2 limited hattempt
    dsimp only [log]
    rw [foldl_answer_resets, foldl_shown_resets]
    exact ⟨limited, hanswer, hfits.shows⟩
  | case5 n result outcome tracker hok hrejected hbudget tracker' events log result' outcome' rest hattempt =>
    rename_i ih
    obtain ⟨hanswer, hshown⟩ := (attempt_shown b deps (hgrows _ _) (some result)).1 result' outcome' hattempt
    obtain ⟨last, hlast, hshows⟩ := ih hshown h
    dsimp only [log]
    rw [append_assoc, foldl_answer_resets, foldl_shown_resets, foldl_append, foldl_append, hanswer]
    exact ⟨last, hlast, hshows⟩

/-! `run_validated_mission`: one call, then the loop. -/

theorem mission_segments (given : Option ExecutionBudgetTracker) :
    ∃ (first : List LoopEvent) (later : List (List LoopEvent)),
      (runValidatedMission b deps query streaming given).log =
        first ++ (later.map (resets streaming ++ ·)).flatten ∧
      OneRun first ∧ (∀ events ∈ later, OneRun events) ∧
      later.length ≤ (given.getD { limits := deps.limits }).limits.maxValidationRevisions.toNat ∧
      (runValidatedMission b deps query streaming given).tracker.used .validationRevisions =
        (given.getD { limits := deps.limits }).used .validationRevisions + later.length := by
  have hone := oneRun_attempt b deps streaming 0 query
  unfold runValidatedMission
  generalize given.getD { limits := deps.limits } = tracker
  cases hattempt : attempt b deps streaming 0 query with
  | mk checked events =>
    rw [hattempt] at hone
    cases checked with
    | raised | limited => exact ⟨events, [], by simp, hone, by simp, by simp, by simp⟩
    | validated result outcome =>
      obtain ⟨later, hlog, hruns, hlength, hused⟩ := revise_log b deps query streaming 0 result outcome tracker
      exact ⟨events, later, by simp [hlog], hone, hruns, by omega, hused⟩

theorem countP_isRun {first : List LoopEvent} {later : List (List LoopEvent)} (hfirst : OneRun first)
    (hlater : ∀ events ∈ later, OneRun events) :
    (first ++ (later.map (resets streaming ++ ·)).flatten).countP LoopEvent.isRun = 1 + later.length := by
  have hone : ∀ events, OneRun events → events.countP LoopEvent.isRun = 1 := by
    rintro events ⟨prompt, rest, rfl, hrest⟩
    rw [countP_cons_of_pos rfl, countP_eq_zero.mpr]
    intro e he
    simp [(hrest e he).1]
  have hresets : (resets streaming).countP LoopEvent.isRun = 0 := by
    cases streaming <;> rfl
  rw [countP_append, hone first hfirst]
  congr 1
  induction later with
  | nil => rfl
  | cons events later ih =>
    rw [map_cons, flatten_cons, countP_append, countP_append, hresets,
      hone events (hlater events (by simp)), ih fun e he => hlater e (by simp [he]), length_cons]
    omega

theorem mission_endsWith (given : Option ExecutionBudgetTracker)
    (h : (runValidatedMission b deps query streaming given).result = some r) :
    EndsWith (runValidatedMission b deps query streaming given).log r := by
  unfold runValidatedMission at h ⊢
  generalize given.getD { limits := deps.limits } = tracker at h ⊢
  cases hattempt : attempt b deps streaming 0 query with
  | mk checked events =>
    rw [hattempt] at h
    cases checked with
    | raised => cases h
    | limited result =>
      obtain rfl := Option.some.inj h
      exact attempt_endsWith b deps streaming hattempt
    | validated result outcome =>
      have hlast := (revise_endsWith b deps query streaming 0 result outcome tracker h).append
        (.ran query :: passedOn streaming (b.run deps 0 query) ++ [.returned result])
      simpa [attempt_validated b deps streaming hattempt] using hlast

theorem mission_rejection_last (given : Option ExecutionBudgetTracker) :
    ∀ e ∈ (runValidatedMission b deps query streaming given).log.dropLast, e.isRejection = false := by
  unfold runValidatedMission
  generalize given.getD { limits := deps.limits } = tracker
  cases hattempt : attempt b deps streaming 0 query with
  | mk checked events =>
    obtain ⟨quiet, hquiet, hevents⟩ := attempt_quiet b deps streaming hattempt
    intro e he
    cases checked with
    | raised | limited =>
      have he : e ∈ quiet := by simpa [hevents] using dropLast_subset _ he
      exact hquiet e he
    | validated result outcome =>
      rw [show events = quiet ++ [.validated result outcome] from hevents] at he
      dsimp only at he
      rw [append_assoc, dropLast_append_of_ne_nil (by simp)] at he
      obtain he | he := mem_append.mp he
      · exact hquiet e he
      · exact revise_rejection_last b deps query streaming 0 result outcome tracker e he

theorem mission_shows (hgrows : ∀ n prompt, (b.run deps n prompt).Grows) (given : Option ExecutionBudgetTracker)
    (h : (runValidatedMission b deps query true given).result = some r) :
    ∃ last, (runValidatedMission b deps query true given).log.foldl LoopEvent.answer none = some last ∧
      Shows deps ((runValidatedMission b deps query true given).log.foldl LoopEvent.shown "") last r := by
  unfold runValidatedMission at h ⊢
  generalize given.getD { limits := deps.limits } = tracker at h ⊢
  cases hattempt : attempt b deps true 0 query with
  | mk checked events =>
    rw [hattempt] at h
    cases checked with
    | raised => cases h
    | limited result =>
      obtain rfl := Option.some.inj h
      obtain ⟨hanswer, hfits⟩ := (attempt_shown b deps (hgrows _ _) none).2 result hattempt
      exact ⟨result, hanswer, hfits.shows⟩
    | validated result outcome =>
      obtain ⟨hanswer, hshown⟩ := (attempt_shown b deps (hgrows _ _) none).1 result outcome hattempt
      obtain ⟨last, hlast, hshows⟩ := revise_shows b deps query hgrows 0 result outcome tracker hshown h
      refine ⟨last, ?_, ?_⟩
      · rw [foldl_append, hanswer]
        exact hlast
      · rw [foldl_append]
        exact hshows

/-- The loop is bounded, ends with a validation or at the limits, stops at a rejection, resets the
stream before each further run, and shows a part of the agent's last answer when it returns. -/
theorem runValidatedMission_bounded (given : Option ExecutionBudgetTracker) :
    let tracker := given.getD { limits := deps.limits }
    let mission := runValidatedMission b deps query streaming given
    (mission.log.countP LoopEvent.isRun : Int) ≤ 1 + max 0 tracker.limits.maxValidationRevisions ∧
      (∀ result, mission.result = some result → EndsWith mission.log result) ∧
      (∀ e ∈ mission.log.dropLast, e.isRejection = false) ∧
      (∃ (first : List LoopEvent) (later : List (List LoopEvent)), mission.log = first ++ (later.map (resets streaming ++ ·)).flatten ∧
        OneRun first ∧ (∀ events ∈ later, OneRun events) ∧
        mission.tracker.used .validationRevisions =
          tracker.used .validationRevisions + later.length) ∧
      (streaming = true → (∀ n prompt, (b.run deps n prompt).Grows) →
        ∀ result, mission.result = some result →
          ∃ last, mission.log.foldl LoopEvent.answer none = some last ∧
            Shows deps (mission.log.foldl LoopEvent.shown "") last result) := by
  intro tracker mission
  obtain ⟨first, later, hlog, hfirst, hlater, hlength, hused⟩ := mission_segments b deps query streaming given
  refine ⟨?_, fun result h => mission_endsWith b deps query streaming given h,
    mission_rejection_last b deps query streaming given, ⟨first, later, hlog, hfirst, hlater, hused⟩, ?_⟩
  · rw [show mission.log = _ from hlog, countP_isRun streaming hfirst hlater]
    have hlength : later.length ≤ tracker.limits.maxValidationRevisions.toNat := hlength
    omega
  · rintro rfl hgrows result h
    exact mission_shows b deps query hgrows given h

end Loop

/-! Where the loop fails closed, blanks that have been streamed are not returned. -/

def newYear : Datetime where
  date := ⟨2026, 1, 1, Date.year_2026_range, Date.january_range, by decide⟩

def indented : MissionResult where
  missionId := "m"
  status := .completed
  query := "sales"
  asOf := newYear
  finalResponse := " Sales rose"

def contradicted : ValidationOutcome where
  ok := false
  reason := some "contradicted"
  verdict := some .reject

def indentedRuns : Behaviour where
  agent _ _ _ := { partials := [some " Sales", some " Sales rose"], ending := .finished indented }
  validate _ _ := some contradicted

def indentedRun : ValidatedRun :=
  runValidatedMission indentedRuns { missionId := "m", asOf := newYear } "sales" true none

theorem revise_rejected {b : Behaviour} {deps : Deps} {query : String} {streaming : Bool} {n : Nat}
    {result : MissionResult} {outcome : ValidationOutcome} {tracker : ExecutionBudgetTracker}
    (hok : ¬ outcome.ok = true) (hrejected : outcome.rejected = true) :
    revise b deps query streaming n result outcome tracker = { result := some result.insufficient, tracker } := by
  rw [revise, if_neg hok, if_pos hrejected]

theorem rejected_not_prefix :
    (∀ n prompt, (indentedRuns.run { missionId := "m", asOf := newYear } n prompt).Grows) ∧
      ∃ result, indentedRun.result = some result ∧ result.finalResponse = "Sales rose" ∧
        indentedRun.log.foldl LoopEvent.shown "" = " Sales rose" ∧
        ¬ (indentedRun.log.foldl LoopEvent.shown "").toList <+: result.finalResponse.toList := by
  have hanswer : ({ indented with trace := Dict.empty.set "steps" (.arr []) } :
      MissionResult).insufficient.finalResponse = "Sales rose" := by decide
  have hrun : indentedRun.result =
      some ({ indented with trace := Dict.empty.set "steps" (.arr []) } : MissionResult).insufficient := by
    unfold indentedRun runValidatedMission
    exact congrArg ValidatedRun.result (revise_rejected (by decide) (by decide))
  have hlog : indentedRun.log =
      (attempt indentedRuns { missionId := "m", asOf := newYear } true 0 "sales").2 ++ [] := by
    unfold indentedRun runValidatedMission
    exact congrArg (_ ++ ValidatedRun.log ·) (revise_rejected (by decide) (by decide))
  have hshown : indentedRun.log.foldl LoopEvent.shown "" = " Sales rose" := by
    rw [hlog]
    decide
  have hchain : [" Sales".toList, " Sales rose".toList, " Sales rose".toList].IsChain (· <+: ·) := by
    decide
  refine ⟨?_, _, hrun, hanswer, hshown, ?_⟩
  · rintro n prompt result ⟨⟩
    exact hchain
  · rw [hshown, hanswer]
    decide

end SelericSwarm.Agent
