import SelericSwarm.Submission
import SelericSwarm.Supersession

/-! Which memories a context build considers, and which are to be considered: the listing
selects by thread and project, the build by scope, and the extractor sets both. -/
open List

namespace SelericSwarm
open Keyed

/-! `MemoryCandidateExtractor`. -/

/-- What the regular expressions find: `_SENTENCE.split` of a text, and the first of
`_CANDIDATES` in a sentence with the text after its match. -/
structure SentencePatterns where
  split : String → List String
  candidate : String → Option (MemoryType × String)

/-- `_text(message)`. -/
def Message.text (message : Message) : String :=
  "\n".intercalate <| message.parts.filterMap fun part =>
    match part.type, part.content with
    | .text, .str s => if isBlank s then none else some (strip s)
    | _, _ => none

def Message.candidate (message : Message) (texts : MemoryTexts) (thread : Thread) (sentence : String)
    (found : MemoryType × String) (id : String) (now : Moment) : StoredMemory where
  id := id
  workspaceId := thread.workspaceId
  ownerUserId := thread.ownerUserId
  projectId := thread.projectId
  threadId := some thread.id
  scope := if found.1 = .preference then .user else .thread
  type := some found.1
  content := .text sentence
  normalizedContent := texts.normalize (.text sentence)
  structuredData := Dict.empty.set "subject_key"
    (.str (String.ofList ((texts.normalize (.text found.2)).toList.take 160)))
  provenance := (Dict.empty.set "extractor" (.str "phase6-explicit-v1")).set "verbatim" (.bool true)
  confidence := some (9 / 10)
  sourceMessageId := some message.id
  sourceMessageIds := [message.id]
  requiresConfirmation := true
  createdAt := now
  updatedAt := now

/-- `extract`; the ids are drawn in the order of the candidates. -/
def SentencePatterns.extract (patterns : SentencePatterns) (texts : MemoryTexts) (message : Message)
    (thread : Thread) (ids : Nat → String) (now : Moment) : List StoredMemory :=
  if message.role ≠ .user then []
  else
    let sentences := (patterns.split message.text).map strip
    let found := sentences.filterMap fun sentence =>
      ((patterns.candidate sentence).filter fun _ => 8 ≤ sentence.length).map (sentence, ·)
    found.zipIdx.map fun ((sentence, candidate), i) =>
      message.candidate texts thread sentence candidate (ids i) now

/-! The selection of `ContextBuilder.build`. -/

namespace Thread

def inScope (thread : Thread) (item : StoredMemory) : Bool :=
  item.scope = .user ||
    ((item.scope = .project || item.scope = .episodic) && thread.projectId.isSome &&
      item.projectId = thread.projectId) ||
    (item.scope = .thread && item.threadId = some thread.id)

end Thread

namespace StoredMemory

/-- `(item.type, item.normalized_content or normalize_memory_content(item.content))`. -/
def statement (texts : MemoryTexts) (item : StoredMemory) : Option MemoryType × String :=
  (item.type, (truthy (some item.normalizedContent)).getD (texts.normalize item.content))

/-- `(item.pinned, item.updated_at) > (current.pinned, current.updated_at)`. -/
def beats (item current : StoredMemory) : Bool :=
  (item.pinned && !current.pinned) || (item.pinned = current.pinned && current.updatedAt < item.updatedAt)

end StoredMemory

/-- The memories before budgeting; `score` is what the query makes of each. -/
def MemoryStore.considered (texts : MemoryTexts) (s : MemoryStore) (thread : Thread) (score : StoredMemory → ℚ)
    (now : Moment) : List StoredMemory :=
  let candidates :=
    if s.optedOut thread.workspaceId thread.ownerUserId then []
    else s.list thread.workspaceId thread.ownerUserId thread.projectId (some thread.id) false 500 now
  let deduplicated := Dict.keepBest (StoredMemory.statement texts) StoredMemory.beats
    (candidates.filter thread.inScope)
  deduplicated.values.insertionSort fun a b => score b ≤ score a

/-! What is to be considered. -/

namespace Thread

/-- The owner's active, unexpired memories in the thread's workspace that are in scope. -/
def qualifies (thread : Thread) (now : Moment) (item : StoredMemory) : Bool :=
  item.workspaceId = thread.workspaceId && item.ownerUserId = thread.ownerUserId && item.deletedAt = none &&
    MemoryStore.effectiveAt item now && thread.inScope item

def reaches (thread : Thread) (item : StoredMemory) : Bool :=
  item.threadId.all (· = thread.id) && thread.projectId.all fun id => item.projectId.all (· = id)

/-- Memories that the thread may be shown at all. -/
structure Isolated (thread : Thread) (item : StoredMemory) : Prop where
  workspaceId : item.workspaceId = thread.workspaceId
  ownerUserId : item.ownerUserId = thread.ownerUserId
  threadId : item.scope = .thread → item.threadId = some thread.id
  projectId : item.scope = .project ∨ item.scope = .episodic →
    thread.projectId.isSome = true ∧ item.projectId = thread.projectId

end Thread

/-- The chosen are the stored memories with the property, reduced to one for each type and
normalized content. -/
structure MemoryStore.Reduced (texts : MemoryTexts) (s : MemoryStore) (p : StoredMemory → Bool)
    (chosen : List StoredMemory) : Prop where
  sound : ∀ m ∈ chosen, m ∈ s.items.rows ∧ p m = true
  distinct : (chosen.map (StoredMemory.statement texts)).Nodup
  complete : ∀ m ∈ s.items.rows, p m = true → ∃ m' ∈ chosen, m'.statement texts = m.statement texts

namespace MemoryStore
variable {texts : MemoryTexts} {s : MemoryStore} {thread : Thread} {score : StoredMemory → ℚ} {now : Moment}
  {m : StoredMemory}

theorem isolated_of_qualifies (h : thread.qualifies now m = true) : thread.Isolated m := by
  simp only [Thread.qualifies, Bool.and_eq_true, decide_eq_true_eq] at h
  obtain ⟨⟨⟨⟨hworkspace, howner⟩, -⟩, -⟩, hscope⟩ := h
  refine { workspaceId := hworkspace, ownerUserId := howner, threadId := ?_, projectId := ?_ }
  · intro hs
    simpa [Thread.inScope, hs] using hscope
  · rintro (hs | hs)
    · simpa [Thread.inScope, hs] using hscope
    · simpa [Thread.inScope, hs] using hscope

theorem listed_and_inScope (thread : Thread) (now : Moment) (m : StoredMemory) :
    (listed thread.workspaceId thread.ownerUserId thread.projectId (some thread.id) false now m &&
      thread.inScope m) = (thread.qualifies now m && thread.reaches m) := by
  rw [Bool.eq_iff_iff]
  simp only [listed, Thread.qualifies, Thread.reaches, Bool.and_eq_true, Option.all_some, Bool.false_or]
  tauto

theorem mem_candidates (hcount : (s.items.rows.filter
      (listed thread.workspaceId thread.ownerUserId none none false now)).length ≤ 500) :
    m ∈ (s.list thread.workspaceId thread.ownerUserId thread.projectId (some thread.id) false 500 now).filter
        thread.inScope ↔
      m ∈ s.items.rows ∧ thread.qualifies now m = true ∧ thread.reaches m = true := by
  have hboth := listed_and_inScope thread now m
  rw [Bool.eq_iff_iff, Bool.and_eq_true, Bool.and_eq_true] at hboth
  rw [mem_filter, ← hboth]
  constructor
  · rintro ⟨hm, hscope⟩
    obtain ⟨hmem, hlisted⟩ := mem_list hm
    exact ⟨hmem, hlisted, hscope⟩
  · rintro ⟨hmem, hlisted, hscope⟩
    refine ⟨mem_list_of_listed hmem hlisted ?_, hscope⟩
    have hfewer : (s.items.rows.filter (listed thread.workspaceId thread.ownerUserId thread.projectId
        (some thread.id) false now)).length ≤ 500 := by
      refine le_trans (Sublist.length_le (monotone_filter_right _ ?_)) hcount
      intro item h
      simp only [listed, Bool.and_eq_true, Option.all_none] at h ⊢
      tauto
    omega

theorem considered_of_optedOut (h : s.optedOut thread.workspaceId thread.ownerUserId = true) :
    s.considered texts thread score now = [] := by
  simp [considered, h, Dict.keepBest, Dict.values, Dict.empty]

theorem mem_considered (hm : m ∈ s.considered texts thread score now) :
    m ∈ (s.list thread.workspaceId thread.ownerUserId thread.projectId (some thread.id) false 500 now).filter
      thread.inScope := by
  have hkept := Dict.mem_of_mem_keepBest ((mem_insertionSort _).mp hm)
  split at hkept
  · simp at hkept
  · exact hkept

theorem isolated_of_considered (hm : m ∈ s.considered texts thread score now) : thread.Isolated m := by
  obtain ⟨hlist, hscope⟩ := mem_filter.mp (mem_considered hm)
  have hboth := listed_and_inScope thread now m
  rw [(mem_list hlist).2, hscope, Bool.and_self] at hboth
  exact isolated_of_qualifies (Bool.and_eq_true_iff.mp hboth.symm).1

/-- The selection is the reduced one exactly when each statement to be considered is made by
a memory that is bound to no other thread and no other project. -/
theorem considered_iff (texts : MemoryTexts) (s : MemoryStore) (thread : Thread) (score : StoredMemory → ℚ)
    (now : Moment) (hcount : (s.items.rows.filter
      (listed thread.workspaceId thread.ownerUserId none none false now)).length ≤ 500) :
    ((s.optedOut thread.workspaceId thread.ownerUserId = true → s.considered texts thread score now = []) ∧
      (∀ m ∈ s.considered texts thread score now, thread.Isolated m) ∧
      (s.optedOut thread.workspaceId thread.ownerUserId = false →
        s.Reduced texts (thread.qualifies now) (s.considered texts thread score now))) ↔
    (s.optedOut thread.workspaceId thread.ownerUserId = false →
      ∀ m ∈ s.items.rows, thread.qualifies now m = true → ∃ m' ∈ s.items.rows, thread.qualifies now m' = true ∧
        thread.reaches m' = true ∧ m'.statement texts = m.statement texts) := by
  have hfound : ∀ m ∈ s.considered texts thread score now,
      m ∈ s.items.rows ∧ thread.qualifies now m = true ∧ thread.reaches m = true :=
    fun m hm => (mem_candidates hcount).mp (mem_considered hm)
  constructor
  · rintro ⟨-, -, hreduced⟩ hin m hm hq
    obtain ⟨m', hm', hstatement⟩ := (hreduced hin).complete m hm hq
    obtain ⟨hmem, hq', hreaches⟩ := hfound m' hm'
    exact ⟨m', hmem, hq', hreaches, hstatement⟩
  · intro hreachable
    refine ⟨considered_of_optedOut, fun m hm => isolated_of_considered hm, fun hin => ?_⟩
    have hperm : (s.considered texts thread score now).Perm
        (Dict.keepBest (StoredMemory.statement texts) StoredMemory.beats
          ((s.list thread.workspaceId thread.ownerUserId thread.projectId (some thread.id) false 500
            now).filter thread.inScope)).values := by
      simpa [considered, hin] using perm_insertionSort _ _
    refine { sound := fun m hm => ⟨(hfound m hm).1, (hfound m hm).2.1⟩, distinct := ?_, complete := ?_ }
    · rw [(hperm.map (StoredMemory.statement texts)).nodup_iff]
      exact Dict.nodup_keepBest
    · intro m hm hq
      obtain ⟨m', hmem, hq', hreaches, hstatement⟩ := hreachable hin m hm hq
      have hcandidate := (mem_candidates hcount).mpr ⟨hmem, hq', hreaches⟩
      have hkept : ∃ kept ∈ (Dict.keepBest (StoredMemory.statement texts) StoredMemory.beats _).values,
          kept.statement texts = m'.statement texts := Dict.exists_mem_keepBest hcandidate
      obtain ⟨kept, hkept, hsame⟩ := hkept
      exact ⟨kept, hperm.mem_iff.mpr hkept, hsame.trans hstatement⟩

end MemoryStore

/-! What is learned in a thread. -/

namespace SentencePatterns
variable {patterns : SentencePatterns} {texts : MemoryTexts} {message : Message} {thread : Thread}
  {ids : Nat → String} {now : Moment} {c : StoredMemory}

end SentencePatterns

/-! A preference that is learned in one thread and confirmed, before a build in another. -/

namespace MemoryStore
open MemorySession (plainTexts)

def firstThread : Thread where
  id := "t1"
  workspaceId := "w"
  ownerUserId := "u"
  updatedAt := 0

def secondThread : Thread := { firstThread with id := "t2" }

def preference : Message where
  id := "m1"
  threadId := "t1"
  workspaceId := "w"
  role := .user
  parts := [{ type := .text, content := .str "dark mode i prefer" }]
  createdAt := 0

def plainPatterns : SentencePatterns where
  split text := [text]
  candidate sentence := if sentence = "dark mode i prefer" then some (.preference, "") else none

def learned : MemoryStore :=
  let candidates := plainPatterns.extract plainTexts preference firstThread (fun _ => "memory") 1
  let ingested := (({} : MemoryStore).ingestCandidates plainTexts 1 candidates).2
  (ingested.serve plainTexts "memory" "w" "u" .confirm 2).2

theorem considered_firstThread :
    ((learned.optedOut "w" "u" = true → learned.considered plainTexts firstThread (fun _ => 0) 3 = []) ∧
      (∀ m ∈ learned.considered plainTexts firstThread (fun _ => 0) 3, firstThread.Isolated m) ∧
      (learned.optedOut "w" "u" = false → learned.Reduced plainTexts (firstThread.qualifies 3)
        (learned.considered plainTexts firstThread (fun _ => 0) 3))) ↔
    (learned.optedOut "w" "u" = false →
      ∀ m ∈ learned.items.rows, firstThread.qualifies 3 m = true → ∃ m' ∈ learned.items.rows,
        firstThread.qualifies 3 m' = true ∧ firstThread.reaches m' = true ∧
          m'.statement plainTexts = m.statement plainTexts) :=
  considered_iff plainTexts learned firstThread (fun _ => 0) 3 (by decide)

theorem learned_not_considered :
    (learned.items.rows.filter (listed "w" "u" none none false 3)).length ≤ 500 ∧
      ¬ ((learned.optedOut "w" "u" = true → learned.considered plainTexts secondThread (fun _ => 0) 3 = []) ∧
        (∀ m ∈ learned.considered plainTexts secondThread (fun _ => 0) 3, secondThread.Isolated m) ∧
        (learned.optedOut "w" "u" = false → learned.Reduced plainTexts (secondThread.qualifies 3)
          (learned.considered plainTexts secondThread (fun _ => 0) 3))) := by
  refine ⟨by decide, ?_⟩
  rintro ⟨-, -, hreduced⟩
  have hqualifies : (learned.items.rows.any fun m => secondThread.qualifies 3 m) = true := by decide
  have hnone : learned.considered plainTexts secondThread (fun _ => 0) 3 = [] := by
    rw [← length_eq_zero_iff]
    decide
  obtain ⟨m, hm, hq⟩ := List.any_eq_true.mp hqualifies
  obtain ⟨m', hm', -⟩ := (hreduced (by decide)).complete m hm hq
  simp [hnone] at hm'

end MemoryStore

end SelericSwarm
