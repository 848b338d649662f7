import Mathlib.Data.List.Basic

/-! Identifiers as the source's format strings build them, and which of them
can never coincide. -/
namespace SelericSwarm
open List

/-- `uuid4().hex`: 32 lower-case hexadecimal digits. -/
structure UuidHex where
  digits : List Char
  length_eq : digits.length = 32
  hex : ∀ c ∈ digits, c ∈ "0123456789abcdef".toList

def UuidHex.repeated (digit : Char) (h : digit ∈ "0123456789abcdef".toList) : UuidHex where
  digits := List.replicate 32 digit
  length_eq := length_replicate
  hex _ hc := eq_of_mem_replicate hc ▸ h

def UuidHex.nil : UuidHex := .repeated '0' (by simp)

/-- `_id(prefix)`. -/
def newId (kind : String) (hex : UuidHex) : String := kind ++ "_" ++ String.ofList hex.digits

/-- The id `transition_failed_attempt` gives the successor of an attempt. -/
def retryAttemptId (runId : String) (number : Nat) : String :=
  "attempt_retry_" ++ runId ++ "_" ++ toString number

/-- The event `transition_failed_attempt` ends a run with, and the worker's default one. -/
def terminalEventId (runId attemptId : String) : String :=
  "event_terminal_" ++ runId ++ "_" ++ attemptId

/-- The event `cancel_run` ends a run with. -/
def cancelledEventId (runId : String) : String := "event_" ++ runId ++ "_cancelled"

/-- The id `_attempt_event` builds. -/
def attemptEventId (runId attemptId suffix : String) : String :=
  "event_" ++ runId ++ "_" ++ attemptId ++ "_" ++ suffix

theorem append_marked_inj {α : Type} {c : α} {a a' d d' : List α} (h : a ++ c :: d = a' ++ c :: d')
    (hd : c ∉ d) (hd' : c ∉ d') : a = a' ∧ d = d' := by
  obtain ⟨m, hm, hc⟩ | ⟨m, hm, hc⟩ := append_eq_append_iff.mp h
  · cases m with
    | nil => simpa [eq_comm] using And.intro hm.symm hc
    | cons x m =>
      injection hc with hx hc
      exact absurd (hc ▸ by simp) hd
  · cases m with
    | nil => simpa [eq_comm] using And.intro hm hc
    | cons x m =>
      injection hc with hx hc
      exact absurd (hc ▸ by simp) hd'

theorem toString_inj {n n' : Nat} (h : (toString n).toList = (toString n').toList) : n = n' := by
  simp only [Nat.toString_eq_ofList_toDigits, String.toList_ofList] at h
  rw [← Nat.ofDigitChars_ten_toDigits (n := n), h, Nat.ofDigitChars_ten_toDigits]

/-- The last underscore separates the run from the number. -/
theorem retryAttemptId_inj {r r' : String} {n n' : Nat}
    (h : retryAttemptId r n = retryAttemptId r' n') : r = r' ∧ n = n' := by
  have hl : ("attempt_retry_" ++ r ++ "_" ++ toString n).toList =
      ("attempt_retry_" ++ r' ++ "_" ++ toString n').toList := congrArg String.toList h
  simp only [String.toList_append, append_assoc] at hl
  obtain ⟨hr, hn⟩ := append_marked_inj (c := '_') (by simpa using append_cancel_left hl)
    (by simp) (by simp)
  exact ⟨String.toList_inj.mp hr, toString_inj (by simpa using hn)⟩

theorem UuidHex.no_underscore (hex : UuidHex) : '_' ∉ hex.digits := by
  intro h
  have := hex.hex _ h
  simp at this

/-- A generated id is none of the ids that carry a further underscore. -/
theorem newId_ne (kind : String) (hex : UuidHex) (tail : String) (h : '_' ∈ tail.toList) :
    newId kind hex ≠ kind ++ "_" ++ tail := by
  intro he
  have hl := congrArg String.toList he
  simp only [newId, String.toList_append, String.toList_ofList] at hl
  exact hex.no_underscore (append_cancel_left hl ▸ h)

theorem newId_ne_retryAttemptId (hex : UuidHex) (runId : String) (number : Nat) :
    newId "attempt" hex ≠ retryAttemptId runId number := by
  have h := newId_ne "attempt" hex ("retry_" ++ runId ++ "_" ++ toString number) (by simp)
  have hsplit : "attempt_retry_" ++ runId ++ "_" ++ toString number =
      "attempt" ++ "_" ++ ("retry_" ++ runId ++ "_" ++ toString number) := by
    simp [← String.append_assoc]
  exact fun he => h (he.trans hsplit)

/-- The ids under which the code ends a run. -/
def TerminalEventId (runId id : String) : Prop :=
  id = cancelledEventId runId ∨
    ∃ attemptId, id = attemptEventId runId attemptId "terminal" ∨ id = terminalEventId runId attemptId

theorem TerminalEventId.opening {hex : UuidHex} {id : String} (h : TerminalEventId (newId "run" hex) id) :
    (∃ rest, id.toList = "event_run_".toList ++ (hex.digits ++ rest)) ∨
      ∃ rest, id.toList = "event_terminal_run_".toList ++ (hex.digits ++ rest) := by
  obtain rfl | ⟨attemptId, rfl | rfl⟩ := h
  · exact Or.inl ⟨"_cancelled".toList, by simp [cancelledEventId, newId]⟩
  · exact Or.inl ⟨("_" ++ attemptId ++ "_" ++ "terminal").toList, by simp [attemptEventId, newId]⟩
  · refine Or.inr ⟨("_" ++ attemptId).toList, ?_⟩
    have hid : ("event_terminal_" ++ newId "run" hex ++ "_" ++ attemptId).toList =
        "event_terminal_run_".toList ++ (hex.digits ++ ("_" ++ attemptId).toList) := by
      simp [newId]
    exact hid

theorem TerminalEventId.run_eq {hex hex' : UuidHex} {id : String}
    (h : TerminalEventId (newId "run" hex) id) (h' : TerminalEventId (newId "run" hex') id) :
    newId "run" hex = newId "run" hex' := by
  have hlen : hex.digits.length = hex'.digits.length := hex.length_eq.trans hex'.length_eq.symm
  have hdigits : hex.digits = hex'.digits := by
    obtain ⟨rest, hr⟩ | ⟨rest, hr⟩ := h.opening <;> obtain ⟨rest', hr'⟩ | ⟨rest', hr'⟩ := h'.opening
    · exact (List.append_inj (append_cancel_left (hr.symm.trans hr')) hlen).1
    · simp [hr] at hr'
    · simp [hr] at hr'
    · exact (List.append_inj (append_cancel_left (hr.symm.trans hr')) hlen).1
  rw [newId, newId, hdigits]

end SelericSwarm
