import SelericSwarm.SharedBudget
import SelericSwarm.ThreadSummaries
import Mathlib.Algebra.Group.Prod
import Mathlib.Algebra.Order.BigOperators.Group.List
import Mathlib.Algebra.Order.Monoid.Prod
import Mathlib.Data.List.MinMax

/-! What a context build sends: each source has a budget, all draw on one of characters and one of tokens. -/
open List

namespace SelericSwarm
open Keyed

/-! The orders that are computed with. -/

local instance intPreorder : Preorder Int := Int.instLinearOrder.toPreorder

local instance intPartialOrder : PartialOrder Int := Int.instLinearOrder.toPartialOrder

/-- What Python's regular expressions and strings make of characters. -/
structure CharacterClasses where
  word : Char → Bool
  space : Char → Bool
  isalnum : String → Bool
  isidentifier : String → Bool

namespace CharacterClasses
variable (classes : CharacterClasses)

/-- `_TOKEN.findall(value)`, behind the word characters that have been read. -/
def findTokens : List Char → List Char → List String
  | word, [] => if word = [] then [] else [String.ofList word]
  | word, c :: cs =>
    if classes.word c then findTokens (word ++ [c]) cs
    else (if word = [] then [] else [String.ofList word]) ++ (if classes.space c then [] else [String.ofList [c]]) ++
      findTokens [] cs

def approximateTokenCount (value : String) : Nat :=
  ((classes.findTokens [] value.toList).map fun token =>
    if classes.isalnum token || classes.isidentifier token then max 1 ((token.length + 3) / 4) else 1).sum

end CharacterClasses

/-- How a build renders what it charges: `str` of a dictionary and `_json`. -/
structure Rendering where
  classes : CharacterClasses
  str : Payload → String
  json : Json → String

structure ContextBuilder where
  totalCharacters : Int := 12000
  messageCharacters : Int := 5000
  summaryCharacters : Int := 2500
  memoryCharacters : Int := 3000
  artifactCharacters : Int := 1500
  totalTokens : Option Int := none

structure ContextRepositories where
  messages : MessageRepository
  threadSummaries : ThreadSummaryRepository
  memories : MemoryStore
  artifacts : ArtifactRepository

/-- What a build is asked for; `score` is what the query makes of a memory. -/
structure ContextRequest where
  thread : Thread
  score : StoredMemory → ℚ
  workspaceConfig : Payload := .empty
  permissions : Dict String Bool := .empty
  now : Moment

/-- The messages are held as they are dumped, with all their parts. -/
structure ContextBundle where
  permissions : Dict String Bool
  workspaceConfig : Payload
  recentMessages : List Message
  latestSummary : Option ThreadSummary
  memories : List StoredMemory
  artifacts : List Artifact
  memoryIds : List String
  artifactIds : List String
  provenance : Payload
  characterCount : Int
  tokenEstimate : Int
  tokenBudget : Int

namespace ThreadSummaryRepository

def latest (s : ThreadSummaryRepository) (threadId workspaceId ownerUserId : String) : Option ThreadSummary :=
  (s.rows.filter fun item => item.threadId = threadId && item.workspaceId = workspaceId &&
    item.ownerUserId = ownerUserId).argmax ThreadSummary.createdAt

end ThreadSummaryRepository

def MemoryScope.value : MemoryScope → String
  | .thread => "THREAD"
  | .user => "USER"
  | .project => "PROJECT"
  | .episodic => "EPISODIC"

namespace Json

def ofStrings (items : List String) : Json := .arr (items.map .str)

def ofOption (item : Option String) : Json := item.elim .null .str

end Json

/-- What a bundle says about where a memory comes from. -/
def StoredMemory.details (m : StoredMemory) : Json :=
  .obj [("scope", .str m.scope.value), ("project_id", .ofOption m.projectId), ("thread_id", .ofOption m.threadId),
    ("source_message_ids", .ofStrings (fromKeys (m.sourceMessageIds ++ (truthy m.sourceMessageId).toList))),
    ("source_run_id", .ofOption m.sourceRunId), ("source_evidence_ids", .ofStrings m.sourceEvidenceIds),
    ("provenance", .obj m.provenance.rows)]

namespace Rendering
variable (render : Rendering)

/-- What a rendered text takes of the characters and of the tokens. -/
def cost (text : String) : Int × Int := (text.length, render.classes.approximateTokenCount text)

/-- `str(item.content)`. -/
def content (m : StoredMemory) : String :=
  match m.content with
  | .text text => text
  | .data entries => render.str entries

def payload (artifact : Artifact) : String := render.json (.obj artifact.payload.rows)

/-- `take`, on the account of the whole build. -/
def take {α : Type} (text : α → String) (values : List α) (budget : Int) (left : Int × Int) : List α × (Int × Int) :=
  SharedBudget.take (fun value => (text value).length) (fun value => render.cost (text value)) budget values 0 left

/-- The provenance of the memories, as far as it fits. -/
def allow : List (String × Json) → Payload → Int × Int → Payload × (Int × Int)
  | [], allowed, left => (allowed, left)
  | (memoryId, details) :: rest, allowed, left =>
    if render.cost (render.json details) ≤ left then
      allow rest (allowed.set memoryId details) (left - render.cost (render.json details))
    else allow rest allowed left

end Rendering

namespace ContextBuilder
variable (builder : ContextBuilder) (render : Rendering) (repositories : ContextRepositories) (request : ContextRequest)
  (texts : MemoryTexts)

/-- `total_tokens or max(1, total_characters // 3)`. -/
def tokenBudget : Int := (builder.totalTokens.filter (· ≠ 0)).getD (max 1 (builder.totalCharacters / 3))

/-! The stages of `build`, each with what it leaves. -/

def requestedPermissions : Dict String Bool :=
  if request.permissions.rows = [] then
    (((Dict.empty.set "read_messages" true).set "read_memory"
      (!repositories.memories.optedOut request.thread.workspaceId request.thread.ownerUserId)).set
      "read_artifacts" true).set "read_workspace_config" true
  else request.permissions

def permitted : Dict String Bool × (Int × Int) :=
  let requested := requestedPermissions repositories request
  let cost := render.cost (render.json (.obj (requested.rows.map fun entry => (entry.1, .bool entry.2))))
  if cost ≤ (builder.totalCharacters, builder.tokenBudget) then
    (requested, (builder.totalCharacters, builder.tokenBudget) - cost)
  else (.empty, (builder.totalCharacters, builder.tokenBudget))

/-- The newest first, as they are taken. -/
def recent : List Message × (Int × Int) :=
  render.take Message.text (repositories.messages.listForThread request.thread.id 500).reverse builder.messageCharacters
    (builder.permitted render repositories request).2

def summarized : Option ThreadSummary × (Int × Int) :=
  let left := (builder.recent render repositories request).2
  match repositories.threadSummaries.latest request.thread.id request.thread.workspaceId request.thread.ownerUserId with
  | none => (none, left)
  | some summary =>
    if min builder.summaryCharacters left.1 < summary.summary.length ∨ left.2 < (render.cost summary.summary).2 then
      (none, left)
    else (some summary, left - render.cost summary.summary)

def remembered : List StoredMemory × (Int × Int) :=
  render.take render.content (repositories.memories.considered texts request.thread request.score request.now)
    builder.memoryCharacters (builder.summarized render repositories request).2

def attached : List Artifact × (Int × Int) :=
  render.take render.payload (repositories.artifacts.listForContext request.thread.workspaceId request.thread.id)
    builder.artifactCharacters (builder.remembered render repositories request texts).2

def configured : List Payload × (Int × Int) :=
  let left := (builder.attached render repositories request texts).2
  render.take (fun config => render.json (.obj config.rows)) [request.workspaceConfig] left.1 left

def explained : Payload × (Int × Int) :=
  let provenance := (builder.remembered render repositories request texts).1.foldl
    (fun provenance m => provenance.set m.id m.details) Dict.empty
  render.allow provenance.rows .empty (builder.configured render repositories request texts).2

/-- `none` where the bundle refuses its counts. -/
def build : Option ContextBundle :=
  let left := (builder.explained render repositories request texts).2
  let memories := (builder.remembered render repositories request texts).1
  let artifacts := (builder.attached render repositories request texts).1
  let characterCount := builder.totalCharacters - left.1
  let tokenEstimate := builder.tokenBudget - left.2
  if 0 ≤ characterCount ∧ 0 ≤ tokenEstimate ∧ 0 ≤ builder.tokenBudget then some
    { permissions := (builder.permitted render repositories request).1
      workspaceConfig := ((builder.configured render repositories request texts).1.head?).getD .empty
      recentMessages := (builder.recent render repositories request).1.reverse
      latestSummary := (builder.summarized render repositories request).1
      memories
      artifacts
      memoryIds := memories.map StoredMemory.id
      artifactIds := artifacts.map Artifact.id
      provenance := (builder.explained render repositories request texts).1
      characterCount, tokenEstimate, tokenBudget := builder.tokenBudget }
  else none

end ContextBuilder

/-! What is placed in a bundle. -/

/-- The string or the JSON of a part. -/
def MessagePart.size (render : Rendering) (part : MessagePart) : Nat :=
  match part.content with
  | .str s => s.length
  | content => (render.json content).length

def Message.size (render : Rendering) (message : Message) : Nat := (message.parts.map (·.size render)).sum

namespace ContextBundle
variable (render : Rendering) (bundle : ContextBundle)

def messageSize : Nat := SharedBudget.total (Message.size render) bundle.recentMessages

def summarySize : Nat := bundle.latestSummary.elim 0 (·.summary.length)

def memorySize : Nat := SharedBudget.total (fun m => (render.content m).length) bundle.memories

def artifactSize : Nat := SharedBudget.total (fun artifact => (render.payload artifact).length) bundle.artifacts

/-- Counts and contents are within the budgets. -/
structure Within (builder : ContextBuilder) : Prop where
  characters : bundle.characterCount ≤ builder.totalCharacters
  tokens : bundle.tokenEstimate ≤ bundle.tokenBudget
  messages : bundle.messageSize render ≤ builder.messageCharacters
  summary : bundle.summarySize ≤ builder.summaryCharacters
  memories : bundle.memorySize render ≤ builder.memoryCharacters
  artifacts : bundle.artifactSize render ≤ builder.artifactCharacters
  together : bundle.messageSize render + bundle.summarySize + bundle.memorySize render + bundle.artifactSize render ≤
    builder.totalCharacters

end ContextBundle

namespace ContextBuilder

/-- No budget is negative. -/
structure Nonnegative (builder : ContextBuilder) : Prop where
  totalCharacters : 0 ≤ builder.totalCharacters
  messageCharacters : 0 ≤ builder.messageCharacters
  summaryCharacters : 0 ≤ builder.summaryCharacters
  memoryCharacters : 0 ≤ builder.memoryCharacters
  artifactCharacters : 0 ≤ builder.artifactCharacters
  totalTokens : ∀ tokens ∈ builder.totalTokens, 0 ≤ tokens

variable (builder : ContextBuilder) (render : Rendering) (repositories : ContextRepositories) (request : ContextRequest)
  (texts : MemoryTexts)

/-- A bundle is returned, and it is within the budgets. -/
def Bounded : Prop := ∃ bundle, builder.build render repositories request texts = some bundle ∧ bundle.Within render builder

/-- What the messages that are taken are charged for. -/
def charged : Nat := SharedBudget.total (fun message : Message => message.text.length)
  (builder.recent render repositories request).1

/-- The messages that are taken have together no more content than text. -/
def Covered : Prop := SharedBudget.total (Message.size render) (builder.recent render repositories request).1 ≤
  builder.charged render repositories request

end ContextBuilder

/-! What a stage draws. -/

/-- A stage that draws a number of characters, and does not overdraw. -/
structure Draws (drawn : Nat) (left left' : Int × Int) : Prop where
  characters : left'.1 = left.1 - drawn
  le : left' ≤ left
  nonneg : 0 ≤ left → 0 ≤ left'

namespace Draws
variable {left left' left'' : Int × Int} {drawn drawn' : Nat}

theorem refl (left : Int × Int) : Draws 0 left left := ⟨by simp, le_rfl, id⟩

theorem trans (h : Draws drawn left left') (h' : Draws drawn' left' left'') : Draws (drawn + drawn') left left'' where
  characters := by
    have h₁ := h.characters
    have h₂ := h'.characters
    omega
  le := h'.le.trans h.le
  nonneg hleft := h'.nonneg (h.nonneg hleft)

end Draws

namespace Rendering
variable (render : Rendering)

theorem cost_nonneg (text : String) : 0 ≤ render.cost text := Prod.mk_le_mk.mpr ⟨Int.natCast_nonneg _, Int.natCast_nonneg _⟩

theorem draws_cost {text : String} {left : Int × Int} (h : render.cost text ≤ left) :
    Draws text.length left (left - render.cost text) where
  characters := rfl
  le := sub_le_self _ (render.cost_nonneg text)
  nonneg _ := sub_nonneg.mpr h

theorem sum_cost {α : Type} (text : α → String) (items : List α) :
    ((items.map fun item => render.cost (text item)).sum).1 = SharedBudget.total (fun item => (text item).length) items := by
  induction items with
  | nil => rfl
  | cons item items ih =>
    rw [map_cons, sum_cons, Prod.fst_add, ih, SharedBudget.total_cons, Nat.cast_add]
    rfl

theorem draws_take {α : Type} (text : α → String) (values : List α) (budget : Int) (left : Int × Int) :
    Draws (SharedBudget.total (fun item => (text item).length) (render.take text values budget left).1) left
      (render.take text values budget left).2 := by
  have hleft : (render.take text values budget left).2 = _ := SharedBudget.take_left values 0 left
  refine ⟨?_, ?_, SharedBudget.take_nonneg values 0 left⟩
  · rw [hleft, Prod.fst_sub, sum_cost]
    rfl
  · rw [hleft]
    refine sub_le_self _ (sum_nonneg fun cost hcost => ?_)
    obtain ⟨value, -, rfl⟩ := List.mem_map.mp hcost
    exact render.cost_nonneg _

theorem take_le {α : Type} (text : α → String) (values : List α) {budget : Int} (hbudget : 0 ≤ budget) (left : Int × Int) :
    (SharedBudget.total (fun item => (text item).length) (render.take text values budget left).1 : Int) ≤ budget := by
  have h : 0 + (SharedBudget.total (fun item => (text item).length) (render.take text values budget left).1 : Int) ≤ budget :=
    SharedBudget.take_used values 0 left hbudget
  omega

theorem draws_allow (entries : List (String × Json)) : ∀ (allowed : Payload) (left : Int × Int),
    ∃ drawn, Draws drawn left (render.allow entries allowed left).2 := by
  induction entries with
  | nil => exact fun _ left => ⟨0, .refl left⟩
  | cons entry entries ih =>
    intro allowed left
    rw [allow]
    split
    · next hfits =>
      obtain ⟨drawn, hrest⟩ := ih (allowed.set entry.1 entry.2) (left - render.cost (render.json entry.2))
      exact ⟨_, (render.draws_cost hfits).trans hrest⟩
    · exact ih allowed left

end Rendering
/-! The stages of a build. -/

namespace ContextBuilder
variable {builder : ContextBuilder} {render : Rendering} {repositories : ContextRepositories} {request : ContextRequest}
  {texts : MemoryTexts}

theorem draws_permitted : ∃ drawn, Draws drawn (builder.totalCharacters, builder.tokenBudget)
    (builder.permitted render repositories request).2 := by
  rw [permitted]
  split
  · next hfits => exact ⟨_, render.draws_cost hfits⟩
  · exact ⟨0, .refl _⟩

theorem draws_recent : Draws (builder.charged render repositories request) (builder.permitted render repositories request).2
    (builder.recent render repositories request).2 :=
  render.draws_take _ _ _ _

theorem draws_summarized : Draws ((builder.summarized render repositories request).1.elim 0 (·.summary.length))
    (builder.recent render repositories request).2 (builder.summarized render repositories request).2 := by
  rw [summarized]
  split
  · exact .refl _
  · split
    · exact .refl _
    · next summary hfits =>
      rw [not_or, not_lt, not_lt] at hfits
      exact render.draws_cost (Prod.mk_le_mk.mpr ⟨hfits.1.trans (min_le_right _ _), hfits.2⟩)

theorem summarized_le (h : 0 ≤ builder.summaryCharacters) :
    (((builder.summarized render repositories request).1.elim 0 (·.summary.length) : Nat) : Int) ≤ builder.summaryCharacters := by
  rw [summarized]
  split
  · exact h
  · split
    · exact h
    · next summary hfits =>
      rw [not_or, not_lt, not_lt] at hfits
      exact hfits.1.trans (min_le_left _ _)

theorem draws_remembered : Draws
    (SharedBudget.total (fun m => (render.content m).length) (builder.remembered render repositories request texts).1)
    (builder.summarized render repositories request).2 (builder.remembered render repositories request texts).2 :=
  render.draws_take _ _ _ _

theorem draws_attached : Draws
    (SharedBudget.total (fun artifact => (render.payload artifact).length) (builder.attached render repositories request texts).1)
    (builder.remembered render repositories request texts).2 (builder.attached render repositories request texts).2 :=
  render.draws_take _ _ _ _

/-- What is left in the end. -/
theorem draws_explained : ∃ drawn, Draws drawn (builder.attached render repositories request texts).2
    (builder.explained render repositories request texts).2 := by
  obtain ⟨drawn, hdrawn⟩ := render.draws_allow ((builder.remembered render repositories request texts).1.foldl
    (fun provenance m => provenance.set m.id m.details) Dict.empty).rows .empty
    (builder.configured render repositories request texts).2
  have hconfigured : Draws _ (builder.attached render repositories request texts).2
    (builder.configured render repositories request texts).2 := render.draws_take _ _ _ _
  exact ⟨_, hconfigured.trans hdrawn⟩

theorem draws_sources : ∃ drawn, Draws (drawn + (builder.charged render repositories request +
      (builder.summarized render repositories request).1.elim 0 (·.summary.length) +
      SharedBudget.total (fun m => (render.content m).length) (builder.remembered render repositories request texts).1 +
      SharedBudget.total (fun artifact => (render.payload artifact).length) (builder.attached render repositories request texts).1))
    (builder.totalCharacters, builder.tokenBudget) (builder.attached render repositories request texts).2 := by
  obtain ⟨drawn, hpermitted⟩ := @draws_permitted builder render repositories request
  have hsources := ((draws_recent.trans draws_summarized).trans draws_remembered).trans
    (@draws_attached builder render repositories request texts)
  exact ⟨drawn, hpermitted.trans hsources⟩

theorem Nonnegative.tokenBudget (h : builder.Nonnegative) : 0 ≤ builder.tokenBudget := by
  rw [ContextBuilder.tokenBudget]
  cases htotal : builder.totalTokens with
  | none => exact le_trans (by decide) (le_max_left 1 _)
  | some tokens =>
    rw [Option.filter_some]
    split
    · exact h.totalTokens tokens htotal
    · exact le_trans (by decide) (le_max_left 1 _)

theorem tokenBudget_of_some {tokens : Int} (h : builder.totalTokens = some tokens) (hneg : tokens < 0) :
    builder.tokenBudget < 0 := by
  rw [ContextBuilder.tokenBudget, h, Option.filter_some, if_pos (decide_eq_true hneg.ne)]
  exact hneg

theorem total_reverse {α : Type} (size : α → Nat) (items : List α) :
    SharedBudget.total size items.reverse = SharedBudget.total size items := by
  rw [SharedBudget.total, map_reverse, sum_reverse]
  rfl

/-- A bundle within its budgets has none that is negative. -/
theorem Bounded.nonnegative (h : builder.Bounded render repositories request texts) : builder.Nonnegative := by
  obtain ⟨bundle, hbuild, hwithin⟩ := h
  have htogether := hwithin.together
  have hmessages := hwithin.messages
  have hsummary := hwithin.summary
  have hmemories := hwithin.memories
  have hartifacts := hwithin.artifacts
  refine ⟨by omega, by omega, by omega, by omega, by omega, fun tokens htokens => ?_⟩
  by_contra hneg
  rw [build] at hbuild
  have hbudget := tokenBudget_of_some htokens (not_le.mp hneg)
  rw [if_neg fun hcounts => absurd hcounts.2.2 (not_le.mpr hbudget)] at hbuild
  cases hbuild

/-- With budgets that are not negative it takes messages with more content than text to exceed them. -/
theorem Nonnegative.bounded (h : builder.Nonnegative) (hcovered : builder.Covered render repositories request) :
    builder.Bounded render repositories request texts := by
  obtain ⟨drawn, hsources⟩ := @draws_sources builder render repositories request texts
  obtain ⟨drawn', hexplained⟩ := @draws_explained builder render repositories request texts
  have hstart : (0 : Int × Int) ≤ (builder.totalCharacters, builder.tokenBudget) :=
    Prod.mk_le_mk.mpr ⟨h.totalCharacters, h.tokenBudget⟩
  have hleft := hexplained.nonneg (hsources.nonneg hstart)
  have hless := hexplained.le.trans hsources.le
  have hcharacters := hsources.characters
  have hnonneg : 0 ≤ (builder.attached render repositories request texts).2.1 := (hsources.nonneg hstart).1
  have hmessages : (builder.charged render repositories request : Int) ≤ builder.messageCharacters :=
    render.take_le _ _ h.messageCharacters _
  rw [Covered] at hcovered
  have hcounts : 0 ≤ builder.totalCharacters - (builder.explained render repositories request texts).2.1 ∧
      0 ≤ builder.tokenBudget - (builder.explained render repositories request texts).2.2 ∧ 0 ≤ builder.tokenBudget :=
    ⟨sub_nonneg.mpr hless.1, sub_nonneg.mpr hless.2, h.tokenBudget⟩
  refine ⟨_, if_pos hcounts, ?_⟩
  refine ⟨sub_le_self _ hleft.1, sub_le_self _ hleft.2, ?_, summarized_le h.summaryCharacters,
    render.take_le _ _ h.memoryCharacters _, render.take_le _ _ h.artifactCharacters _, ?_⟩
  · rw [ContextBundle.messageSize, total_reverse]
    omega
  · rw [ContextBundle.messageSize, total_reverse, ContextBundle.summarySize, ContextBundle.memorySize, ContextBundle.artifactSize]
    dsimp only at hcharacters ⊢
    push_cast at hcharacters
    omega

theorem recent_tight (h : 0 ≤ builder.messageCharacters) :
    ({ builder with messageCharacters := builder.charged render repositories request } : ContextBuilder).recent
      render repositories request = builder.recent render repositories request := by
  refine SharedBudget.take_tight _ 0 _ _ h ?_
  rw [zero_add]
  rfl

/-- Budgets bound what is sent if none is negative and the messages that are taken have no more content than text;
they do not if one is negative, nor where more content is taken and the messages have no budget to spare. -/
theorem build_bounded (builder : ContextBuilder) (render : Rendering) (repositories : ContextRepositories)
    (request : ContextRequest) (texts : MemoryTexts) :
    (builder.Bounded render repositories request texts → builder.Nonnegative) ∧
    (builder.Nonnegative → builder.Covered render repositories request → builder.Bounded render repositories request texts) ∧
    (builder.Nonnegative → ¬builder.Covered render repositories request →
      ¬({ builder with messageCharacters := builder.charged render repositories request } : ContextBuilder).Bounded
        render repositories request texts) := by
  refine ⟨Bounded.nonnegative, Nonnegative.bounded, fun h hmore hbounded => ?_⟩
  obtain ⟨bundle, hbuild, hwithin⟩ := hbounded
  rw [build] at hbuild
  split at hbuild
  · obtain rfl := Option.some.inj hbuild
    have hmessages := hwithin.messages
    rw [ContextBundle.messageSize, total_reverse, recent_tight h.messageCharacters] at hmessages
    exact hmore (Int.ofNat_le.mp hmessages)
  · cases hbuild

/-! A part that is no text. -/

def asciiClasses : CharacterClasses where
  word c := c.isAlphanum || c = '_'
  space c := c.isWhitespace
  isalnum token := token ≠ "" && token.toList.all Char.isAlphanum
  isidentifier token := (token.toList.head?).any (fun c => !c.isDigit) && token.toList.all fun c => c.isAlphanum || c = '_'

/-- As Python renders a dictionary of one permission. -/
def plainRendering : Rendering where
  classes := asciiClasses
  str _ := "\x7b\x7d"
  json
    | .obj [(key, .bool value)] => "\x7b\"" ++ key ++ "\":" ++ (if value then "true" else "false") ++ "\x7d"
    | _ => "\x7b\x7d"

def listing : Message where
  id := "m1"
  threadId := "t1"
  workspaceId := "w"
  role := .assistant
  parts := [{ type := .code, content := .str "SELECT 1" }]
  createdAt := 0

def codeRepositories : ContextRepositories where
  messages := Table.put .empty listing
  threadSummaries := .empty
  memories := {}
  artifacts := .empty

def codeRequest : ContextRequest where
  thread := MemoryStore.firstThread
  score _ := 0
  permissions := Dict.empty.set "read_messages" true
  now := 0

/-- Eight characters of code are placed where no characters are to be. -/
theorem code_not_bounded : ¬({ messageCharacters := 0 } : ContextBuilder).Bounded plainRendering codeRepositories codeRequest
    MemorySession.plainTexts := by
  rintro ⟨bundle, hbuild, hwithin⟩
  have hsize : (({ messageCharacters := 0 } : ContextBuilder).build plainRendering codeRepositories codeRequest
      MemorySession.plainTexts).all fun bundle => bundle.messageSize plainRendering = 8 := by decide
  have hmessages := hwithin.messages
  rw [hbuild, Option.all_some, decide_eq_true_eq] at hsize
  rw [hsize] at hmessages
  exact absurd hmessages (by decide)

end ContextBuilder
end SelericSwarm
