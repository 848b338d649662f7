import Mathlib.Data.List.Induction
import SelericSwarm.GuardedCalls

/-! What the guard does to the calls of a mission: it shows old results only for the calls they are of. -/
namespace SelericSwarm.Guard
open Keyed Agent List
variable {repr : Arg → String} {first s : Session} {calls before after : List ToolCall} {c c' : ToolCall} {t : String}

/-- A mission that is about to begin. -/
def fresh (missionId : String) (conversational liveDataUnavailable : Bool) : Session :=
  { missionId, conversational, liveDataUnavailable }

/-- The guard shows an old result only for an equal call, runs the handler just when there is none to show, withdraws
a tool only at a third equal call, and then for good. -/
structure Transparent (repr : Arg → String) (first : Session) (calls : List ToolCall) : Prop where
  runs : ∀ before c after, calls = before ++ c :: after → c.function = true →
    (((first.calls repr before).call repr c).1.1 = true ↔
      ∀ value, (first.calls repr before).lastReturn c = some value → failedForNow value = true)
  answers : ∀ before c after, calls = before ++ c :: after →
    ((first.calls repr before).call repr c).1 = (true, c.outcome) ∨
      ∃ value, (first.calls repr before).lastReturn c = some value ∧
        ((first.calls repr before).call repr c).1 = (false, .returned (replay c.tool (times before c + 1) value))
  withdraws : ∀ before c after, calls = before ++ c :: after →
    ∀ t ∈ ((first.calls repr before).call repr c).2.withdrawn, t ∉ (first.calls repr before).withdrawn →
      t = c.tool ∧ ((first.calls repr before).call repr c).1.1 = false ∧ 3 ≤ times before c + 1
  keeps : ∀ before after, calls = before ++ after → ∀ t ∈ (first.calls repr before).withdrawn,
    ∀ tools, t ∉ withdrawDataTools (first.calls repr calls) tools
  available : ∀ t, (∀ before c after, calls = before ++ c :: after → c.function = true → c.tool = t → times before c + 1 < 3) →
    ∀ tools, t ∈ withdrawDataTools first tools → t ∈ withdrawDataTools (first.calls repr calls) tools

/-- Calls have one key just when they are of one tool with equal arguments, and no handler returns `None`. -/
structure Faithful (repr : Arg → String) (calls : List ToolCall) : Prop where
  keyed : ∀ c ∈ calls, ∀ c' ∈ calls, c.key repr = c'.key repr ↔ Same c c' = true
  something : ∀ c ∈ calls, c.outcome ≠ .returned .null

theorem calls_append : first.calls repr (before ++ after) = (first.calls repr before).calls repr after :=
  foldl_append

theorem calls_concat : first.calls repr (before ++ [c]) = ((first.calls repr before).call repr c).2 := by
  rw [calls_append]
  rfl

/-! One call. -/

/-- The four ways of a call: past the guard, with a result to keep, with none, and with an old one. -/
theorem call_cases (repr : Arg → String) (s : Session) (c : ToolCall) :
    (c.function = false ∧ s.call repr c = ((true, c.outcome), s)) ∨
    (c.function = true ∧ rerun (s.results.get? (s.missionId, c.key repr)) = true ∧
      ((∃ value, c.outcome = .returned value ∧ s.call repr c = ((true, c.outcome),
          { s with
            repeats := s.repeats.set (c.key repr) (s.repeats.getD (c.key repr) 0 + 1)
            results := s.results.set (s.missionId, c.key repr) value
            log := s.log ++ [(c, value)] })) ∨
        s.call repr c = ((true, c.outcome),
          { s with repeats := s.repeats.set (c.key repr) (s.repeats.getD (c.key repr) 0 + 1) }))) ∨
    (c.function = true ∧ ∃ value, s.results.get? (s.missionId, c.key repr) = some value ∧ rerun (some value) = false ∧
      s.call repr c = ((false, .returned (replay c.tool (s.repeats.getD (c.key repr) 0 + 1) value)),
        if withdrawAfter ≤ s.repeats.getD (c.key repr) 0 + 1 then
          ({ s with repeats := s.repeats.set (c.key repr) (s.repeats.getD (c.key repr) 0 + 1) }).withdraw c.tool
        else { s with repeats := s.repeats.set (c.key repr) (s.repeats.getD (c.key repr) 0 + 1) })) := by
  unfold Session.call
  cases hkind : c.function with
  | false => exact Or.inl ⟨rfl, rfl⟩
  | true =>
    refine Or.inr ?_
    dsimp only
    by_cases hrerun : rerun (s.results.get? (s.missionId, c.key repr)) = true
    · refine Or.inl ⟨rfl, hrerun, ?_⟩
      rw [hrerun]
      cases houtcome : c.outcome with
      | returned value => exact Or.inl ⟨value, rfl, rfl⟩
      | modelRetry message => exact Or.inr rfl
      | raised => exact Or.inr rfl
    · refine Or.inr ⟨rfl, ?_⟩
      cases hprior : s.results.get? (s.missionId, c.key repr) with
      | none =>
        rw [hprior] at hrerun
        exact absurd rfl hrerun
      | some value =>
        rw [hprior] at hrerun
        refine ⟨value, rfl, Bool.eq_false_of_not_eq_true hrerun, ?_⟩
        rw [Bool.eq_false_of_not_eq_true hrerun]
        rfl

/-- What the guard has on record after some calls. -/
structure Recorded (repr : Arg → String) (first : Session) (before : List ToolCall) (s : Session) : Prop where
  mission : s.missionId = first.missionId ∧ s.conversational = first.conversational ∧
    s.liveDataUnavailable = first.liveDataUnavailable
  counted : ∀ k, s.repeats.getD k 0 = (before.filter fun c => c.function && c.key repr = k).length
  kept : ∀ k, s.results.get? (s.missionId, k) = ((s.log.filter fun e => e.1.key repr = k).getLast?.map Prod.snd)
  logged : ∀ e ∈ s.log, e.1 ∈ before ∧ e.1.outcome = .returned e.2
  few : ∀ t ∈ s.withdrawn, ∃ front c rest, before = front ++ c :: rest ∧ c.function = true ∧ c.tool = t ∧
    3 ≤ (front.filter fun c' => c'.function && c'.key repr = c.key repr).length + 1

section
variable (h : Recorded repr first before s)
include h

theorem counted_set (hkind : c.function = true) (k : String) :
    (s.repeats.set (c.key repr) (s.repeats.getD (c.key repr) 0 + 1)).getD k 0 =
      ((before ++ [c]).filter fun c => c.function && c.key repr = k).length := by
  rw [filter_append, length_append, Dict.getD_set, h.counted, h.counted]
  by_cases hk : c.key repr = k
  · subst hk
    simp [hkind]
  · simp [hkind, hk]

theorem counted_skip (hkind : c.function = false) (k : String) :
    s.repeats.getD k 0 = ((before ++ [c]).filter fun c => c.function && c.key repr = k).length := by
  rw [filter_append, length_append, h.counted]
  simp [hkind]

theorem few_concat {t : String} (ht : t ∈ s.withdrawn) :
    ∃ front c' rest, before ++ [c] = front ++ c' :: rest ∧ c'.function = true ∧ c'.tool = t ∧
      3 ≤ (front.filter fun c => c.function && c.key repr = c'.key repr).length + 1 := by
  obtain ⟨front, c', rest, rfl, hrest⟩ := h.few t ht
  exact ⟨front, c', rest ++ [c], by rw [append_assoc, cons_append], hrest⟩

theorem Recorded.call (c : ToolCall) : Recorded repr first (before ++ [c]) (s.call repr c).2 := by
  have hlogged : ∀ e ∈ s.log, e.1 ∈ before ++ [c] ∧ e.1.outcome = .returned e.2 := fun e he =>
    ⟨mem_append_left _ (h.logged e he).1, (h.logged e he).2⟩
  obtain ⟨hkind, hcall⟩ | ⟨hkind, -, ⟨value, houtcome, hcall⟩ | hcall⟩ | ⟨hkind, value, -, -, hcall⟩ := call_cases repr s c
  · rw [hcall]
    exact ⟨h.mission, counted_skip h hkind, h.kept, hlogged, fun t ht => few_concat h ht⟩
  · rw [hcall]
    refine ⟨h.mission, counted_set h hkind, ?_, ?_, fun t ht => few_concat h ht⟩
    · intro k
      dsimp only
      rw [Dict.get?_set, filter_append]
      by_cases hk : c.key repr = k
      · simp [hk]
      · have hne : (s.missionId, c.key repr) ≠ (s.missionId, k) := fun he => hk (congrArg Prod.snd he)
        simp [hk, h.kept]
    · intro e he
      obtain hold | hnew := mem_append.mp he
      · exact hlogged e hold
      · rw [mem_singleton.mp hnew]
        exact ⟨mem_append_right _ mem_cons_self, houtcome⟩
  · rw [hcall]
    exact ⟨h.mission, counted_set h hkind, h.kept, hlogged, fun t ht => few_concat h ht⟩
  · rw [hcall]
    dsimp only
    split
    · next hthird =>
      refine ⟨h.mission, counted_set h hkind, h.kept, hlogged, ?_⟩
      intro t ht
      obtain rfl | ht := mem_cons.mp ht
      · refine ⟨before, c, [], rfl, hkind, rfl, ?_⟩
        rw [← h.counted]
        exact hthird
      · exact few_concat h ht
    · exact ⟨h.mission, counted_set h hkind, h.kept, hlogged, fun t ht => few_concat h ht⟩

end

theorem recorded_fresh (repr : Arg → String) (missionId : String) (conversational liveDataUnavailable : Bool)
    (calls : List ToolCall) : Recorded repr (fresh missionId conversational liveDataUnavailable) calls
      ((fresh missionId conversational liveDataUnavailable).calls repr calls) := by
  induction calls using List.reverseRecOn with
  | nil =>
    refine ⟨⟨rfl, rfl, rfl⟩, fun _ => rfl, fun _ => rfl, ?_, ?_⟩
    · exact fun e he => absurd he not_mem_nil
    · exact fun t ht => absurd ht not_mem_nil
  | append_singleton calls c ih =>
    rw [calls_concat]
    exact ih.call c

/-! The keys are those of equal calls. -/

theorem times_eq (h : Faithful repr calls) (hsub : before ⊆ calls) (hc : c ∈ calls) :
    (before.filter fun c' => c'.function && c'.key repr = c.key repr).length = times before c := by
  refine congrArg List.length (filter_congr fun c' hc' => ?_)
  have hiff := h.keyed c' (hsub hc') c hc
  rw [← Bool.coe_iff_coe, Bool.and_eq_true, Bool.and_eq_true, decide_eq_true_eq, hiff]

theorem prior_eq (h : Faithful repr calls) (hr : Recorded repr first before s) (hsub : before ⊆ calls) (hc : c ∈ calls) :
    s.results.get? (s.missionId, c.key repr) = s.lastReturn c := by
  rw [hr.kept]
  refine congrArg (fun entries => (List.getLast? entries).map Prod.snd) (filter_congr fun e he => ?_)
  have hiff := h.keyed e.1 (hsub (hr.logged e he).1) c hc
  rw [← Bool.coe_iff_coe, decide_eq_true_eq, hiff]

theorem lastReturn_something (h : Faithful repr calls) (hr : Recorded repr first before s) (hsub : before ⊆ calls)
    {value : ToolReturn} (hlast : s.lastReturn c = some value) : value ≠ .null := by
  obtain ⟨e, he, rfl⟩ := Option.map_eq_some_iff.mp hlast
  have hmem := (mem_filter.mp (mem_of_getLast? he)).1
  obtain ⟨hbefore, houtcome⟩ := hr.logged e hmem
  intro hnull
  rw [hnull] at houtcome
  exact h.something e.1 (hsub hbefore) houtcome

theorem rerun_some {value : ToolReturn} (h : value ≠ .null) : rerun (some value) = failedForNow value := by
  cases value with
  | result prior => rfl
  | value json => rfl
  | null => exact absurd rfl h

theorem mem_withdrawDataTools {tools : List String} : t ∈ withdrawDataTools s tools ↔
    s.conversational = false ∧ t ∈ tools ∧ (s.liveDataUnavailable = true → t ∈ stillAvailable) ∧ t ∉ s.withdrawn := by
  unfold withdrawDataTools
  cases s.conversational
  · cases s.liveDataUnavailable
    · simp
    · simp only [if_true, Bool.false_eq_true, if_false, mem_filter, decide_eq_true_eq, forall_const, true_and, and_assoc]
  · simp

theorem withdrawn_call (repr : Arg → String) (s : Session) (c : ToolCall) :
    ∀ t ∈ s.withdrawn, t ∈ (s.call repr c).2.withdrawn := by
  intro t ht
  obtain ⟨-, hcall⟩ | ⟨-, -, ⟨value, -, hcall⟩ | hcall⟩ | ⟨-, value, -, -, hcall⟩ := call_cases repr s c
  · rwa [hcall]
  · rwa [hcall]
  · rwa [hcall]
  · rw [hcall]
    dsimp only
    split
    · exact mem_cons_of_mem _ ht
    · exact ht

theorem withdrawn_calls (repr : Arg → String) (after : List ToolCall) : ∀ {s : Session},
    ∀ t ∈ s.withdrawn, t ∈ (s.calls repr after).withdrawn := by
  induction after with
  | nil => exact fun t ht => ht
  | cons c after ih => exact fun t ht => ih t (withdrawn_call repr _ c t ht)

/-- With keys that tell calls apart as equality does, and handlers that return something, the guard is transparent. -/
theorem guard_transparent (missionId : String) (conversational liveDataUnavailable : Bool) (h : Faithful repr calls) :
    Transparent repr (fresh missionId conversational liveDataUnavailable) calls := by
  have hrecorded := recorded_fresh repr missionId conversational liveDataUnavailable
  generalize fresh missionId conversational liveDataUnavailable = first at hrecorded ⊢
  have hparts : ∀ {before c after}, calls = before ++ c :: after → before ⊆ calls ∧ c ∈ calls := by
    rintro before c after rfl
    exact ⟨subset_append_left _ _, mem_append_right _ mem_cons_self⟩
  refine ⟨?_, ?_, ?_, ?_, ?_⟩
  · intro before c after hcalls hkind
    obtain ⟨hsub, hc⟩ := hparts hcalls
    have hprior := prior_eq h (hrecorded before) hsub hc
    obtain ⟨hskip, -⟩ | ⟨-, hrerun, hcall⟩ | ⟨-, value, hsome, hrerun, hcall⟩ := call_cases repr (first.calls repr before) c
    · rw [hkind] at hskip
      cases hskip
    · have hran : ((first.calls repr before).call repr c).1.1 = true := by
        obtain ⟨value, -, hcall⟩ | hcall := hcall
        · rw [hcall]
        · rw [hcall]
      refine iff_of_true hran fun value hlast => ?_
      rw [hprior, hlast, rerun_some (lastReturn_something h (hrecorded before) hsub hlast)] at hrerun
      exact hrerun
    · rw [hcall]
      refine iff_of_false Bool.false_ne_true fun hall => ?_
      have hlast : (first.calls repr before).lastReturn c = some value := hprior.symm.trans hsome
      rw [rerun_some (lastReturn_something h (hrecorded before) hsub hlast), hall value hlast] at hrerun
      cases hrerun
  · intro before c after hcalls
    obtain ⟨hsub, hc⟩ := hparts hcalls
    obtain ⟨-, hcall⟩ | ⟨-, -, ⟨value, -, hcall⟩ | hcall⟩ | ⟨-, value, hsome, -, hcall⟩ :=
      call_cases repr (first.calls repr before) c
    · exact Or.inl (congrArg Prod.fst hcall)
    · exact Or.inl (congrArg Prod.fst hcall)
    · exact Or.inl (congrArg Prod.fst hcall)
    · refine Or.inr ⟨value, (prior_eq h (hrecorded before) hsub hc).symm.trans hsome, ?_⟩
      rw [hcall, (hrecorded before).counted, times_eq h hsub hc]
  · intro before c after hcalls t ht hnew
    obtain ⟨hsub, hc⟩ := hparts hcalls
    obtain ⟨-, hcall⟩ | ⟨-, -, ⟨value, -, hcall⟩ | hcall⟩ | ⟨-, value, -, -, hcall⟩ :=
      call_cases repr (first.calls repr before) c
    · rw [hcall] at ht
      exact absurd ht hnew
    · rw [hcall] at ht
      exact absurd ht hnew
    · rw [hcall] at ht
      exact absurd ht hnew
    · rw [hcall] at ht ⊢
      dsimp only at ht
      split at ht
      · next hthird =>
        obtain rfl | hold := mem_cons.mp ht
        · rw [(hrecorded before).counted, times_eq h hsub hc] at hthird
          exact ⟨rfl, rfl, hthird⟩
        · exact absurd hold hnew
      · exact absurd ht hnew
  · rintro before after rfl t ht tools hoffered
    rw [calls_append] at hoffered
    exact (mem_withdrawDataTools.mp hoffered).2.2.2 (withdrawn_calls repr after t ht)
  · intro t hfew tools hoffered
    obtain ⟨hconversational, hmem, hlive, -⟩ := mem_withdrawDataTools.mp hoffered
    obtain ⟨-, hflag, hflag'⟩ := (hrecorded calls).mission
    refine mem_withdrawDataTools.mpr ⟨hflag.trans hconversational, hmem, fun hlost => hlive (hflag'.symm.trans hlost), ?_⟩
    intro hwithdrawn
    obtain ⟨front, c, rest, hcalls, hkind, htool, hthree⟩ := (hrecorded calls).few t hwithdrawn
    obtain ⟨hsub, hc⟩ := hparts hcalls
    have hless := hfew front c rest hcalls hkind htool
    rw [times_eq h hsub hc] at hthree
    omega

/-! A mission that reads a day three times, and calls that the guard takes for others than they are. -/

def python (args : Arg) : String := (dumps args).getD ""

def forecastCall (outcome : Agent.Execution) : ToolCall where
  tool := "forecast"
  args := .dict [(.text "horizon_days", .number 7 "7")]
  outcome := outcome

def dayCall (day : Arg) (shown : String) : ToolCall where
  tool := "read_day"
  args := .dict [(.text "day", day)]
  outcome := .returned (.value (.str shown))

/-- One day is read three times, another one in between; the forecast raises and is tried again. -/
def readDays : List ToolCall :=
  [dayCall (.text "2026-01-01") "cold", forecastCall .raised, dayCall (.text "2026-01-02") "warm",
    dayCall (.text "2026-01-01") "mild", forecastCall (.modelRetry "no model"), dayCall (.text "2026-01-01") "mild"]

theorem guard_transparent_readDays : Transparent python (fresh "mission_1" false false) readDays ∧
    ((fresh "mission_1" false false).calls python readDays).log.length = 2 ∧
    ((fresh "mission_1" false false).calls python readDays).withdrawn = ["read_day"] := by
  refine ⟨guard_transparent "mission_1" false false ⟨?_, ?_⟩, by decide +kernel, by decide +kernel⟩
  · have hkeyed : readDays.all (fun c => readDays.all fun c' =>
        decide (c.key python = c'.key python) == Same c c') = true := by decide +kernel
    intro c hc c' hc'
    have hsame := List.all_eq_true.mp (List.all_eq_true.mp hkeyed c hc) c' hc'
    rw [← eq_of_beq hsame, decide_eq_true_iff]
  · simp [readDays, dayCall, forecastCall]

def dateCall : ToolCall := dayCall (.object 0 "2026-01-01") "a date"

def textCall : ToolCall := dayCall (.text "2026-01-01") "a text"

/-- A handler that has returned `None` runs again, and a date and its text share a result. -/
theorem guard_confuses :
    ¬ Transparent python (fresh "mission_1" false false) [forecastCall (.returned .null), forecastCall (.returned .null)] ∧
      ¬ Transparent python (fresh "mission_1" false false) [dateCall, textCall] := by
  constructor
  · intro h
    have hran := h.runs [forecastCall (.returned .null)] (forecastCall (.returned .null)) [] rfl rfl
    have hfailed := hran.mp (by decide +kernel) .null rfl
    cases hfailed
  · intro h
    obtain hfresh | ⟨value, hlast, -⟩ := h.answers [dateCall] textCall [] rfl
    · have hran : (((fresh "mission_1" false false).calls python [dateCall]).call python textCall).1.1 = false := by
        decide +kernel
      rw [hfresh] at hran
      cases hran
    · have hnone : (((fresh "mission_1" false false).calls python [dateCall]).lastReturn textCall).isSome = false := by
        decide +kernel
      rw [hlast] at hnone
      cases hnone

end SelericSwarm.Guard
