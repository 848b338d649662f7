import SelericSwarm.MemorySelection
import SelericSwarm.Snapshots

/-! Thread summaries: the messages that are taken verbatim until the budget is spent. -/
open List

namespace SelericSwarm
open Keyed

abbrev ThreadSummaryRepository := Table ThreadSummary.id

namespace ThreadSummaryRepository

def create (s : ThreadSummaryRepository) (summary : ThreadSummary) : ThreadSummary × ThreadSummaryRepository :=
  let items := Table.setdefault s summary
  ((items.get? summary.id).getD summary, items)

end ThreadSummaryRepository

def MessageRole.value : MessageRole → String
  | .user => "USER"
  | .assistant => "ASSISTANT"
  | .system => "SYSTEM"
  | .tool => "TOOL"

def Message.line (mode : String) (message : Message) : String :=
  if mode = "extractive" then message.text else message.role.value ++ ": " ++ message.text

/-- `part.content["evidence_id"]` of a source, where it is there and not empty. -/
def MessagePart.evidenceId (str : Json → String) (part : MessagePart) : Option String :=
  match part.type, part.content with
  | .source, .obj entries => ((entries.lookup "evidence_id").filter Json.truthy).map str
  | _, _ => none

namespace ThreadSummaryService

/-- The loop of `create`: the messages that are used. -/
def used (mode : String) : Int → List Message → List Message
  | _, [] => []
  | remaining, message :: messages =>
    if remaining < (message.line mode).length then []
    else message :: used mode (remaining - ((message.line mode).length + 1)) messages

def source (thread : Thread) (messages : List Message) : List Message :=
  messages.filter fun message => message.threadId = thread.id && message.text ≠ ""

def summarize (str : Json → String) (thread : Thread) (messages : List Message) (maxCharacters : Int) (mode : String)
    (id : String) (now : Moment) : ThreadSummary :=
  let source := source thread messages
  let used := used mode (max 1 maxCharacters) source
  { id
    threadId := thread.id
    workspaceId := thread.workspaceId
    ownerUserId := thread.ownerUserId
    throughMessageId := used.getLast?.map Message.id
    coveredMessageIds := used.map Message.id
    sourceEvidenceIds := fromKeys <| used.flatMap fun message => message.parts.filterMap (·.evidenceId str)
    mode := if mode = "deterministic" then .deterministic else .extractive
    summary := "\n".intercalate (used.map (·.line mode))
    metadata := (Dict.empty.set "faithful" (.bool true)).set "truncated" (.bool (used.length < source.length))
    createdAt := now }

def create (str : Json → String) (s : ThreadSummaryRepository) (thread : Thread) (messages : List Message)
    (maxCharacters : Int) (mode : String) (id : String) (now : Moment) : ThreadSummary × ThreadSummaryRepository :=
  s.create (summarize str thread messages maxCharacters mode id now)

/-! Joined lines. -/

/-- A separator behind each line is one too many. -/
theorem length_intercalate (line : String) (lines : List String) :
    ("\n".intercalate (line :: lines)).length + 1 = ((line :: lines).map (·.length + 1)).sum := by
  induction lines generalizing line with
  | nil => simp [String.intercalate_singleton]
  | cons next lines ih =>
    have ih := ih next
    rw [String.intercalate_cons_cons, String.length_append, String.length_append, map_cons, sum_cons, ← ih]
    have hseparator : "\n".length = 1 := rfl
    omega

variable {mode : String}

/-- The lines of the messages fit into the budget. -/
def Fits (mode : String) (budget : Int) (messages : List Message) : Prop :=
  (("\n".intercalate (messages.map (·.line mode))).length : Int) ≤ budget

theorem fits_cons {budget : Int} {message : Message} {messages : List Message} :
    Fits mode budget (message :: messages) ↔ ((message.line mode).length : Int) ≤ budget ∧
      (messages = [] ∨ Fits mode (budget - ((message.line mode).length + 1)) messages) := by
  cases messages with
  | nil => simp [Fits, String.intercalate_singleton]
  | cons next messages =>
    have hwhole := length_intercalate (message.line mode) ((next :: messages).map (·.line mode))
    have hrest := length_intercalate (next.line mode) (messages.map (·.line mode))
    rw [map_cons] at hwhole
    rw [map_cons, sum_cons, ← hrest] at hwhole
    simp only [Fits, map_cons]
    constructor
    · intro h
      refine ⟨by omega, Or.inr (by omega)⟩
    · rintro ⟨-, h⟩
      obtain h | h := h
      · cases h
      · omega

/-- The loop takes as many messages as fit. -/
theorem fits_iff_front (messages : List Message) : ∀ (budget : Int) (front : List Message), front ≠ [] → front <+: messages →
    (Fits mode budget front ↔ front <+: used mode budget messages) := by
  induction messages with
  | nil =>
    intro budget front hne hfront
    exact absurd (prefix_nil.mp hfront) hne
  | cons message messages ih =>
    intro budget front hne hfront
    cases front with
    | nil => exact absurd rfl hne
    | cons first front =>
      obtain ⟨rfl, hrest⟩ := cons_prefix_cons.mp hfront
      rw [fits_cons, used]
      split
      · next hover =>
        rw [prefix_nil]
        constructor
        · rintro ⟨hle, -⟩
          omega
        · exact nofun
      · next hroom =>
        rw [cons_prefix_cons]
        have hle : ((first.line mode).length : Int) ≤ budget := not_lt.mp hroom
        by_cases hnil : front = []
        · simp [hnil, hle]
        · simp [hnil, hle, ih _ front hnil hrest]

theorem used_front (messages : List Message) : ∀ budget, used mode budget messages <+: messages := by
  induction messages with
  | nil => exact fun _ => prefix_refl []
  | cons message messages ih =>
    intro budget
    rw [used]
    split
    · exact nil_prefix
    · exact cons_prefix_cons.mpr ⟨rfl, ih _⟩

theorem fits_used (messages : List Message) {budget : Int} (hbudget : 0 ≤ budget) :
    Fits mode budget (used mode budget messages) := by
  by_cases hnil : used mode budget messages = []
  · rw [hnil]
    exact hbudget
  · exact (fits_iff_front messages budget _ hnil (used_front messages budget)).mpr (prefix_refl _)

/-- The summary is that of the longest front of the messages that fits. -/
structure Faithful (mode : String) (budget : Int) (source covered : List Message) (summary : ThreadSummary) : Prop where
  front : covered <+: source
  fits : Fits mode budget covered
  longest : ∀ longer, longer <+: source → Fits mode budget longer → longer <+: covered
  ids : summary.coveredMessageIds = covered.map Message.id
  through : summary.throughMessageId = covered.getLast?.map Message.id
  through_none : summary.throughMessageId = none ↔ covered = []
  truncated : summary.metadata.get? "truncated" = some (.bool true) ↔ covered ≠ source
  whole : summary.metadata.get? "truncated" = some (.bool false) ↔ covered = source
  lines : summary.summary = "\n".intercalate (covered.map (·.line mode))
  short : (summary.summary.length : Int) ≤ budget

/-- Summaries are faithful, and the repository returns them under an id of their own. -/
theorem create_faithful (str : Json → String) (s : ThreadSummaryRepository) (thread : Thread) (messages : List Message)
    (maxCharacters : Int) (mode : String) (id : String) (now : Moment) :
    (∃ covered, Faithful mode (max 1 maxCharacters) (source thread messages) covered
      (summarize str thread messages maxCharacters mode id now)) ∧
    (s.get? id = none → (create str s thread messages maxCharacters mode id now).1 =
      summarize str thread messages maxCharacters mode id now) := by
  have hbudget : 0 ≤ max 1 maxCharacters := by omega
  have hfits := @fits_used mode (source thread messages) _ hbudget
  have hfront := @used_front mode (source thread messages) (max 1 maxCharacters)
  have htruncated : (used mode (max 1 maxCharacters) (source thread messages)).length < (source thread messages).length ↔
      used mode (max 1 maxCharacters) (source thread messages) ≠ source thread messages := by
    constructor
    · intro hlt heq
      rw [heq] at hlt
      exact Nat.lt_irrefl _ hlt
    · exact fun hne => lt_of_le_of_ne hfront.length_le fun heq => hne (hfront.eq_of_length heq)
  have hmetadata : (summarize str thread messages maxCharacters mode id now).metadata.get? "truncated" =
      some (.bool ((used mode (max 1 maxCharacters) (source thread messages)).length <
        (source thread messages).length)) := Dict.get?_set_self ..
  refine ⟨⟨_, hfront, hfits, fun longer hlonger hfit => ?_, rfl, rfl, ?_, ?_, ?_, rfl, hfits⟩, fun hnew => ?_⟩
  · by_cases hnil : longer = []
    · rw [hnil]
      exact nil_prefix
    · exact (fits_iff_front _ _ longer hnil hlonger).mp hfit
  · simp [summarize]
  · rw [hmetadata, ← htruncated]
    simp
  · rw [hmetadata, ← not_iff_not, ← ne_eq (used _ _ _), ← htruncated]
    simp
  · have hput : Table.setdefault s (summarize str thread messages maxCharacters mode id now) =
        Table.put s (summarize str thread messages maxCharacters mode id now) := Table.setdefault_of_none hnew
    rw [create, ThreadSummaryRepository.create, hput, Table.get?_put_self]
    rfl

end ThreadSummaryService
end SelericSwarm
