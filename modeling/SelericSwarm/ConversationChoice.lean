import SelericSwarm.ConversationStore

/-! The user's last choice: the thread that is selected, the threads that are listed and the messages that are
shown, while the answers to the requests come in any order. -/
open List Option

namespace SelericSwarm.Client

/-! What an answer does to them. -/

namespace ConversationStore
variable (s : ConversationStore)

def selects (p : Pending) : Answer → Option (Option Nat)
  | .threads ids => if s.selectedThreadId.any (· ∈ ids) then none else some ids.head?
  | .thread id => some (some id)
  | .done => match p.waiting with
    | .archiveThread id true => some (s.threads.filter (· ≠ id)).head?
    | _ => none
  | _ => none

/-- The transcript the answer puts in the place of the one that is shown. -/
def rewrites (p : Pending) : Answer → Option (Nat × List Message)
  | .thread id => some (id, [])
  | .history messages _ => match p.waiting with
    | .loadThread id generation => if s.expects id generation then some (id, messages) else none
    | .refreshCancelled id => if s.selectedThreadId = some id then some (id, messages) else none
    | .refreshEvent id runId _ => if s.refreshes id runId then some (id, messages) else none
    | _ => none
  | .failed why => match p.waiting with
    | .loadThread id generation => if s.expects id generation ∧ why = .missing then some (id, []) else none
    | _ => none
  | _ => none

/-- The thread whose load has failed, and whether nothing is selected then. -/
def loadFails (p : Pending) : Answer → Option (Nat × Bool)
  | .failed why => match p.waiting with
    | .loadThread id generation => some (id, s.expects id generation ∧ why = .missing)
    | _ => none
  | _ => none

/-- The submission that has a message shown from now on, and its thread. -/
def begins (p : Pending) : Answer → Option (Nat × Nat)
  | .thread id => match p.waiting with
    | .createForSubmit generation => if generation ∈ s.cancelledSubmissions then none else some (generation, id)
    | _ => none
  | _ => none

/-- The submission whose message the answer replaces, or that has failed. -/
def settles (p : Pending) (answer : Answer) : Option Nat :=
  match p.waiting, answer with
  | .submitMessage generation threadId, .run _ =>
    if generation ∉ s.cancelledSubmissions ∧ generation = s.submissionGeneration ∧
        s.selectedThreadId = some threadId then some generation else none
  | .submitMessage generation _, .failed _ => some generation
  | _, _ => none

/-! Each answer, by what it is the answer to. -/

variable {s}

theorem sendMessage_cases (action generation threadId : Nat) :
    let s' := s.sendMessage action generation threadId
    s'.selectedThreadId = s.selectedThreadId ∧ s'.threads = s.threads ∧
      s'.messages = if generation ∈ s.cancelledSubmissions then s.messages else
        Function.update s.messages threadId (s.messages threadId ++ [{ id := .optimistic generation, fromUser := true }]) := by
  intro s'
  simp only [s', sendMessage]
  split
  · exact ⟨rfl, rfl, rfl⟩
  · exact ⟨rfl, rfl, rfl⟩

theorem threadsListed_cases (action : Nat) (ids : List Nat) :
    let s' := s.threadsListed action ids
    s'.selectedThreadId = (if s.selectedThreadId.any (· ∈ ids) then s.selectedThreadId else ids.head?) ∧
      s'.threads = ids ∧ (ids ≠ [] → s'.messages = s.messages) := by
  intro s'
  simp only [s', threadsListed]
  split
  · exact ⟨rfl, rfl, fun _ => rfl⟩
  · cases ids with
    | nil => exact ⟨rfl, rfl, fun h => absurd rfl h⟩
    | cons id ids => exact ⟨rfl, rfl, fun _ => rfl⟩

theorem threadLoaded_cases (id generation : Nat) (messages : List Message) (ended : List Nat) :
    let s' := s.threadLoaded id generation messages ended
    s'.selectedThreadId = s.selectedThreadId ∧ s'.threads = s.threads ∧
      s'.messages = if s.expects id generation then Function.update s.messages id messages else s.messages := by
  intro s'
  simp only [s', threadLoaded]
  split
  · split
    · exact ⟨rfl, rfl, rfl⟩
    · exact ⟨rfl, rfl, rfl⟩
  · exact ⟨rfl, rfl, rfl⟩

theorem threadLoadFailed_cases (id generation : Nat) (why : Failure) :
    let s' := s.threadLoadFailed id generation why
    let gone := s.expects id generation ∧ why = .missing
    s'.selectedThreadId = (if gone then none else s.selectedThreadId) ∧
      s'.threads = (if gone then s.threads.filter (· ≠ id) else s.threads) ∧
      s'.messages = if gone then Function.update s.messages id [] else s.messages := by
  intro s' gone
  simp only [s', gone, threadLoadFailed]
  split
  · exact ⟨rfl, rfl, rfl⟩
  · exact ⟨rfl, rfl, rfl⟩

theorem threadArchived_cases (action id : Nat) (wasSelected : Bool) :
    let s' := s.threadArchived action id wasSelected
    s'.selectedThreadId = (if wasSelected then (s.threads.filter (· ≠ id)).head? else s.selectedThreadId) ∧
      s'.threads = s.threads.filter (· ≠ id) ∧ s'.messages = s.messages := by
  intro s'
  simp only [s', threadArchived]
  split
  · generalize hthreads : s.threads.filter (· ≠ id) = threads
    cases threads with
    | nil => exact ⟨rfl, rfl, rfl⟩
    | cons next threads => exact ⟨rfl, rfl, rfl⟩
  · exact ⟨rfl, rfl, rfl⟩

theorem messageSubmitted_cases (action generation threadId runId : Nat) :
    let s' := s.messageSubmitted action generation threadId runId
    s'.selectedThreadId = s.selectedThreadId ∧ s'.threads = s.threads ∧
      s'.messages = if generation ∉ s.cancelledSubmissions ∧ generation = s.submissionGeneration ∧
          s.selectedThreadId = some threadId
        then Function.update s.messages threadId ((s.messages threadId).map (stored generation runId))
        else s.messages := by
  intro s'
  simp only [s', messageSubmitted]
  split
  · next hcancelled => exact ⟨rfl, rfl, (if_neg fun h => h.1 hcancelled).symm⟩
  · next hkept =>
    split
    · next hother => exact ⟨rfl, rfl, (if_neg fun h => hother.elim (absurd h.2.1) (absurd h.2.2)).symm⟩
    · next hsame =>
      rw [not_or, Decidable.not_not, Decidable.not_not] at hsame
      exact ⟨rfl, rfl, (if_pos ⟨hkept, hsame⟩).symm⟩

theorem acceptedCancelled_cases (generation : Nat) :
    let s' := s.acceptedCancelled generation
    s'.selectedThreadId = s.selectedThreadId ∧ s'.threads = s.threads ∧ s'.messages = s.messages := by
  intro s'
  simp only [s', acceptedCancelled]
  split
  · exact ⟨rfl, rfl, rfl⟩
  · exact ⟨rfl, rfl, rfl⟩

theorem runCancelled_cases (action : Nat) (threadId : Option Nat) :
    let s' := s.runCancelled action threadId
    s'.selectedThreadId = s.selectedThreadId ∧ s'.threads = s.threads ∧ s'.messages = s.messages := by
  cases threadId with
  | none => exact ⟨rfl, rfl, rfl⟩
  | some id => exact ⟨rfl, rfl, rfl⟩

theorem cancelFailed_cases (action : Nat) (threadId : Option Nat) (why : Failure) :
    let s' := s.cancelFailed action threadId why
    s'.selectedThreadId = s.selectedThreadId ∧ s'.threads = s.threads ∧ s'.messages = s.messages := by
  intro s'
  simp only [s', cancelFailed]
  split
  · cases threadId with
    | none => exact ⟨rfl, rfl, rfl⟩
    | some id => exact ⟨rfl, rfl, rfl⟩
  · exact ⟨rfl, rfl, rfl⟩

/-- Why a thread is no longer listed. -/
def removes (p : Pending) (a : Answer) (id : Nat) : Prop :=
  (∃ ids, a = .threads ids ∧ id ∉ ids) ∨ (∃ b, p.waiting = .archiveThread id b ∧ a = .done) ∨
    ∃ generation, p.waiting = .loadThread id generation ∧ a = .failed .missing

/-- Why a message is no longer shown. -/
def hides (s : ConversationStore) (p : Pending) (a : Answer) (threadId : Nat) (m : Message) : Prop :=
  (∃ messages, s.rewrites p a = some (threadId, messages)) ∨ a = .threads [] ∨
    ∃ generation, s.settles p a = some generation ∧ m.id = .optimistic generation

/-- All that an answer can do to what is selected, listed and shown. -/
structure Answered (s : ConversationStore) (p : Pending) (a : Answer) (s' : ConversationStore) : Prop where
  selected : s'.selectedThreadId = match s.loadFails p a with
    | some load => if load.2 then none else s.selectedThreadId
    | none => (s.selects p a).getD s.selectedThreadId
  listed : ∀ id ∈ s.threads, id ∈ s'.threads ∨ removes p a id
  added : ∀ id, a = .thread id → id ∈ s'.threads
  shown : ∀ threadId, ∀ m ∈ s.messages threadId, m ∈ s'.messages threadId ∨ s.hides p a threadId m
  begun : ∀ u, s.begins p a = some u → ∃ m ∈ s'.messages u.2, m.id = .optimistic u.1 ∧ m.fromUser = true

variable {p : Pending} {a : Answer} {s' : ConversationStore}

theorem Answered.same (h : s'.selectedThreadId = s.selectedThreadId ∧ s'.threads = s.threads ∧ s'.messages = s.messages)
    (hfails : ∀ load, s.loadFails p a = some load → load.2 = false) (hselects : s.selects p a = none)
    (hthread : ∀ id, a ≠ .thread id) : s.Answered p a s' where
  selected := by
    rw [h.1, hselects]
    split
    · next load hload => rw [hfails load hload, if_neg Bool.false_ne_true]
    · rfl
  listed id hid := .inl (h.2.1 ▸ hid)
  added id ha := absurd ha (hthread id)
  shown threadId m hm := .inl (h.2.2 ▸ hm)
  begun u hu := by
    cases a with
    | thread id => exact absurd rfl (hthread id)
    | _ => cases hu

variable {messages : List Message}

theorem Answered.transcript {c : Prop} [Decidable c] {threadId : Nat}
    (h : s'.selectedThreadId = s.selectedThreadId ∧ s'.threads = s.threads ∧
      s'.messages = if c then Function.update s.messages threadId messages else s.messages)
    (hrewrites : s.rewrites p a = if c then some (threadId, messages) else none) (hfails : s.loadFails p a = none)
    (hselects : s.selects p a = none) (hbegins : s.begins p a = none) (hthread : ∀ id, a ≠ .thread id) :
    s.Answered p a s' where
  selected := by rw [h.1, hfails, hselects]; rfl
  listed id hid := .inl (h.2.1 ▸ hid)
  added id ha := absurd ha (hthread id)
  shown t m hm := by
    rw [h.2.2]
    split
    · next hc =>
      by_cases ht : t = threadId
      · subst ht
        exact .inr (.inl ⟨messages, by rw [hrewrites, if_pos hc]⟩)
      · rw [Function.update_of_ne ht]
        exact .inl hm
    · exact .inl hm
  begun u hu := by
    rw [hbegins] at hu
    cases hu

theorem threadsListed_answered (action : Nat) (ids : List Nat) :
    s.Answered ⟨action, .listThreads⟩ (.threads ids) (s.threadsListed action ids) := by
  obtain ⟨hselected, hthreads, hmessages⟩ := threadsListed_cases (s := s) action ids
  refine ⟨?_, fun id _ => ?_, nofun, fun t m hm => ?_, nofun⟩
  · rw [hselected]
    simp only [loadFails, selects]
    split
    · rfl
    · rfl
  · rw [hthreads]
    by_cases hmem : id ∈ ids
    · exact .inl hmem
    · exact .inr (.inl ⟨ids, rfl, hmem⟩)
  · by_cases hids : ids = []
    · exact .inr (.inr (.inl (hids ▸ rfl)))
    · exact .inl (hmessages hids ▸ hm)

theorem addThread_messages {t id : Nat} (h : t ≠ id) : (s.addThread id).messages t = s.messages t := by
  change Function.update s.messages id [] t = s.messages t
  exact Function.update_of_ne h [] s.messages

theorem addThread_answered (action id : Nat) : s.Answered ⟨action, .createThread⟩ (.thread id) (s.addThread id) where
  selected := rfl
  listed t ht := .inl (mem_cons_of_mem id ht)
  added t ht := by
    cases ht
    exact mem_cons_self
  shown t m hm := by
    by_cases ht : t = id
    · subst ht
      exact .inr (.inl ⟨[], rfl⟩)
    · left
      rw [addThread_messages ht]
      exact hm
  begun u hu := by cases hu

theorem createForSubmit_answered (action generation id : Nat) :
    s.Answered ⟨action, .createForSubmit generation⟩ (.thread id) ((s.addThread id).sendMessage action generation id) := by
  obtain ⟨hselected, hthreads, hmessages⟩ := sendMessage_cases (s := s.addThread id) action generation id
  have hadd := addThread_answered (s := s) action id
  refine ⟨hselected, fun t ht => .inl (hthreads ▸ mem_cons_of_mem id ht),
    fun t ht => hthreads ▸ hadd.added t ht, fun t m hm => ?_, fun u hu => ?_⟩
  · by_cases ht : t = id
    · subst ht
      exact .inr (.inl ⟨[], rfl⟩)
    · left
      rw [hmessages]
      split
      · rw [addThread_messages ht]
        exact hm
      · rw [Function.update_of_ne ht, addThread_messages ht]
        exact hm
  · simp only [begins] at hu
    split at hu
    · cases hu
    · next hkept =>
      cases hu
      have hnot : generation ∉ (s.addThread id).cancelledSubmissions := hkept
      rw [hmessages, if_neg hnot]
      exact ⟨_, by rw [Function.update_self]; exact mem_append_right _ mem_cons_self, rfl, rfl⟩

theorem messageSubmitted_answered (action generation threadId runId : Nat) :
    s.Answered ⟨action, .submitMessage generation threadId⟩ (.run runId)
      (s.messageSubmitted action generation threadId runId) := by
  obtain ⟨hselected, hthreads, hmessages⟩ := messageSubmitted_cases (s := s) action generation threadId runId
  refine ⟨hselected, fun t ht => .inl (hthreads ▸ ht), nofun, fun t m hm => ?_, nofun⟩
  rw [hmessages]
  split
  · next hnow =>
    by_cases ht : t = threadId
    · subst ht
      by_cases hid : m.id = .optimistic generation
      · exact .inr (.inr (.inr ⟨generation, if_pos hnow, hid⟩))
      · left
        rw [Function.update_self]
        exact List.mem_map.mpr ⟨m, hm, if_neg hid⟩
    · left
      rw [Function.update_of_ne ht]
      exact hm
  · exact .inl hm

theorem threadArchived_answered (action id : Nat) (wasSelected : Bool) :
    s.Answered ⟨action, .archiveThread id wasSelected⟩ .done (s.threadArchived action id wasSelected) := by
  obtain ⟨hselected, hthreads, hmessages⟩ := threadArchived_cases (s := s) action id wasSelected
  refine ⟨?_, fun t ht => ?_, nofun, fun t m hm => .inl (hmessages ▸ hm), nofun⟩
  · rw [hselected]
    cases wasSelected with
    | false => rfl
    | true => rfl
  · rw [hthreads]
    by_cases heq : t = id
    · exact .inr (.inr (.inl ⟨wasSelected, heq ▸ rfl, rfl⟩))
    · exact .inl (mem_filter.mpr ⟨ht, decide_eq_true heq⟩)

theorem threadLoadFailed_answered (action id generation : Nat) (why : Failure) :
    s.Answered ⟨action, .loadThread id generation⟩ (.failed why) (s.threadLoadFailed id generation why) := by
  obtain ⟨hselected, hthreads, hmessages⟩ := threadLoadFailed_cases (s := s) id generation why
  refine ⟨?_, fun t ht => ?_, nofun, fun t m hm => ?_, nofun⟩
  · rw [hselected]
    simp only [loadFails, decide_eq_true_eq]
  · rw [hthreads]
    split
    · next hgone =>
      by_cases heq : t = id
      · exact .inr (.inr (.inr ⟨generation, heq ▸ rfl, hgone.2 ▸ rfl⟩))
      · exact .inl (mem_filter.mpr ⟨ht, decide_eq_true heq⟩)
    · exact .inl ht
  · rw [hmessages]
    split
    · next hgone =>
      by_cases heq : t = id
      · subst heq
        exact .inr (.inl ⟨[], if_pos hgone⟩)
      · left
        rw [Function.update_of_ne heq]
        exact hm
    · exact .inl hm

theorem answer_answered (h : s.answer p a = some s') : s.Answered p a s' := by
  obtain ⟨action, waiting⟩ := p
  cases a with
  | threads ids =>
    cases waiting with
    | listThreads =>
      cases h
      exact threadsListed_answered action ids
    | _ => cases h
  | thread id =>
    cases waiting with
    | createThread =>
      cases h
      exact addThread_answered action id
    | createForSubmit generation =>
      cases h
      exact createForSubmit_answered action generation id
    | _ => cases h
  | history messages ended =>
    cases waiting with
    | loadThread id generation =>
      cases h
      exact .transcript (threadLoaded_cases id generation messages ended) rfl rfl rfl rfl nofun
    | refreshCancelled id =>
      cases h
      refine .transcript (c := s.selectedThreadId = some id) ?_ rfl rfl rfl rfl nofun
      split
      · exact ⟨rfl, rfl, rfl⟩
      · exact ⟨rfl, rfl, rfl⟩
    | refreshEvent id runId terminal =>
      cases h
      refine .transcript (c := s.refreshes id runId) ?_ rfl rfl rfl rfl nofun
      split
      · exact ⟨rfl, rfl, rfl⟩
      · exact ⟨rfl, rfl, rfl⟩
    | _ => cases h
  | run runId =>
    cases waiting with
    | submitMessage generation threadId =>
      cases h
      exact messageSubmitted_answered action generation threadId runId
    | _ => cases h
  | done =>
    cases waiting with
    | archiveThread id wasSelected =>
      cases h
      exact threadArchived_answered action id wasSelected
    | cancelAccepted generation runId =>
      cases h
      exact .same (acceptedCancelled_cases generation) nofun rfl nofun
    | cancelRun runId threadId =>
      cases h
      exact .same (runCancelled_cases action threadId) nofun rfl nofun
    | _ => cases h
  | failed why =>
    cases waiting with
    | loadThread id generation =>
      cases h
      exact threadLoadFailed_answered action id generation why
    | cancelAccepted generation runId =>
      cases h
      exact .same (acceptedCancelled_cases generation) nofun rfl nofun
    | cancelRun runId threadId =>
      cases h
      exact .same (cancelFailed_cases action threadId why) nofun rfl nofun
    | _ =>
      cases h
      exact .same ⟨rfl, rfl, rfl⟩ nofun rfl nofun

/-! The numbers of the actions. -/

/-- The requests belong to actions before `n`, where `k` is the number of the next one. -/
def Fits (n k : Nat) (s : ConversationStore) : Prop := (∀ q ∈ s.pending, q.action < n) ∧ s.actions = k

variable {n k : Nat}

theorem Fits.await (h : s.Fits n k) {action : Nat} (ha : action < n) (waiting : Waiting) :
    (s.await action waiting).Fits n k := by
  refine ⟨fun q hq => ?_, h.2⟩
  obtain hq | hq := mem_append.mp hq
  · exact h.1 q hq
  · rw [mem_singleton.mp hq]
    exact ha

theorem Fits.answer (h : s.Fits n k) (ha : p.action < n) (hs : s.answer p a = some s') : s'.Fits n k := by
  obtain ⟨hactions, hpending, -, -⟩ := answer_requests hs
  refine ⟨fun q hq => ?_, hactions.trans h.2⟩
  obtain hsame | ⟨waiting, hmore, -⟩ := hpending
  · exact h.1 q (hsame ▸ hq)
  · rw [hmore] at hq
    obtain hq | hq := mem_append.mp hq
    · exact h.1 q hq
    · rw [mem_singleton.mp hq]
      exact ha

theorem Fits.sendMessage (h : s.Fits n k) {action : Nat} (ha : action < n) (generation threadId : Nat) :
    (s.sendMessage action generation threadId).Fits n k := by
  rw [ConversationStore.sendMessage]
  split
  · exact h
  · exact Fits.await (s := { s.putMessages threadId _ with submitting := true }) h ha _

theorem Fits.selectThread (h : s.Fits n k) {action : Nat} (ha : action < n) (id : Nat) :
    (s.selectThread action id).Fits n k :=
  Fits.await (s := { s.stopAll.idle with selectionGeneration := s.selectionGeneration + 1, selectedThreadId := some id })
    h ha _

theorem Fits.user {action : UserAction} (h : s.Fits s.actions s.actions) :
    (s.user action).Fits (s.actions + 1) (s.actions + 1) := by
  have hlt : s.actions < s.actions + 1 := Nat.lt_succ_self _
  have hmore : s.Fits (s.actions + 1) s.actions := ⟨fun q hq => Nat.lt_succ_of_lt (h.1 q hq), rfl⟩
  have hdone : ∀ {s' : ConversationStore}, s'.Fits (s.actions + 1) s.actions →
      ({ s' with actions := s.actions + 1 } : ConversationStore).Fits (s.actions + 1) (s.actions + 1) :=
    fun h' => ⟨h'.1, rfl⟩
  refine hdone ?_
  cases action with
  | loadThreads => exact hmore.await hlt _
  | createThread => exact hmore.await hlt _
  | selectThread id => exact hmore.selectThread hlt id
  | clearSelection => exact hmore
  | archiveThread id => exact hmore.await hlt _
  | submit =>
    dsimp only
    rw [submit]
    split
    · exact hmore
    · dsimp only
      split
      · exact Fits.await (s := { s with submissionGeneration := s.submissionGeneration + 1, submitting := true }) hmore hlt _
      · exact Fits.sendMessage (s := { s with submissionGeneration := s.submissionGeneration + 1 }) hmore hlt _ _
  | cancelRun =>
    dsimp only
    rw [cancelRun]
    split
    · split
      · exact Fits.await (s := s.idle) hmore hlt _
      · cases s.selectedThreadId with
        | none => exact hmore
        | some id => exact hmore
    · exact hmore

theorem Fits.applyRunEvent (h : s.Fits n k) (hpos : 0 < n) (event : RunEvent) : (s.applyRunEvent event).Fits n k := by
  have hshown : (s.showAnswer event).Fits n k := by
    rw [showAnswer]
    cases event.streamed with
    | none => exact h
    | some id => exact h
  rw [ConversationStore.applyRunEvent]
  split
  · cases event.kind with
    | progress => exact h
    | draft id => exact h
    | answer terminal =>
      cases terminal with
      | false => exact hshown.await hpos _
      | true => exact hshown.await hpos _
  · exact h

theorem Fits.streamClosed (h : s.Fits n k) (sub : Subscription) : (s.streamClosed sub).Fits n k := by
  rw [ConversationStore.streamClosed]
  split
  · exact h
  · exact h

/-! What an event does to them: no message of a user is lost. -/

theorem mem_putDraft {id : ServerId} {runId : Option Nat} {m : Message} {generation : Nat}
    (hid : m.id = .optimistic generation) (hm : m ∈ messages) : m ∈ putDraft id runId messages := by
  rw [putDraft]
  split
  · exact List.mem_map.mpr ⟨m, hm, if_neg (by simp [hid])⟩
  · exact mem_append_left _ hm

theorem mem_putAnswer {id : ServerId} {runId : Option Nat} {m : Message} {generation : Nat}
    (hid : m.id = .optimistic generation) (huser : m.fromUser = true) (hm : m ∈ messages) :
    m ∈ putAnswer id runId messages := by
  have hother : isAnswer id runId m = false := by simp [isAnswer, hid, huser]
  rw [putAnswer]
  split
  · next i hi =>
    obtain ⟨hlt, hfound, -⟩ := List.findIdx?_eq_some_iff_getElem.mp hi
    obtain ⟨j, hj, hget⟩ := getElem_of_mem hm
    have hne : i ≠ j := by
      rintro rfl
      rw [hget, hother] at hfound
      cases hfound
    exact mem_iff_getElem.mpr ⟨j, by simpa using hj, by rw [getElem_set_ne hne]; exact hget⟩
  · exact mem_append_left _ hm

/-- Selection and list are kept, and no optimistic message is lost. -/
structure Holds (s s' : ConversationStore) : Prop where
  selected : s'.selectedThreadId = s.selectedThreadId
  threads : s'.threads = s.threads
  shown : ∀ threadId generation, ∀ m ∈ s.messages threadId, m.id = .optimistic generation → m.fromUser = true →
    m ∈ s'.messages threadId

theorem Holds.of_eq (h : s'.selectedThreadId = s.selectedThreadId ∧ s'.threads = s.threads ∧ s'.messages = s.messages) :
    s.Holds s' := ⟨h.1, h.2.1, fun _ _ _ hm _ _ => h.2.2 ▸ hm⟩

theorem Holds.put {threadId : Nat}
    (h : ∀ generation, ∀ m ∈ s.messages threadId, m.id = .optimistic generation → m.fromUser = true → m ∈ messages) :
    s.Holds (s.putMessages threadId messages) where
  selected := rfl
  threads := rfl
  shown t generation m hm hid huser := by
    change m ∈ Function.update s.messages threadId messages t
    by_cases ht : t = threadId
    · subst ht
      rw [Function.update_self]
      exact h generation m hm hid huser
    · rw [Function.update_of_ne ht]
      exact hm

theorem Holds.trans {s'' : ConversationStore} (h : s.Holds s') (h' : s'.Holds s'') : s.Holds s'' where
  selected := h'.selected.trans h.selected
  threads := h'.threads.trans h.threads
  shown t generation m hm hid huser := h'.shown t generation m (h.shown t generation m hm hid huser) hid huser

theorem showAnswer_holds (event : RunEvent) : s.Holds (s.showAnswer event) := by
  rw [showAnswer]
  cases event.streamed with
  | none => exact .of_eq ⟨rfl, rfl, rfl⟩
  | some id => exact .put fun generation m hm hid huser => mem_putAnswer hid huser hm

theorem applyRunEvent_holds (event : RunEvent) : s.Holds (s.applyRunEvent event) := by
  rw [applyRunEvent]
  split
  · cases event.kind with
    | progress => exact .of_eq ⟨rfl, rfl, rfl⟩
    | draft id => exact .put fun generation m hm hid _ => mem_putDraft hid hm
    | answer terminal =>
      cases terminal with
      | false => exact (showAnswer_holds event).trans (.of_eq ⟨rfl, rfl, rfl⟩)
      | true => exact (showAnswer_holds event).trans (.of_eq ⟨rfl, rfl, rfl⟩)
  · exact .of_eq ⟨rfl, rfl, rfl⟩

theorem streamClosed_holds (sub : Subscription) : s.Holds (s.streamClosed sub) := by
  rw [streamClosed]
  split
  · exact .of_eq ⟨rfl, rfl, rfl⟩
  · exact .of_eq ⟨rfl, rfl, rfl⟩

end ConversationStore

/-! The user's choices. -/

/-- The choices that have taken effect and not failed, latest first, each with the number of its action. -/
abbrev Choices := List (Nat × Option Nat)

def Choices.insert (c : Nat × Option Nat) : Choices → Choices
  | [] => [c]
  | d :: choices => if d.1 ≤ c.1 then c :: d :: choices else d :: Choices.insert c choices

def Choices.latest (choices : Choices) : Option Nat := choices.head?.bind Prod.snd

theorem latest_insert_last {choices : Choices} {action : Nat} {target : Option Nat} (h : ∀ c ∈ choices, c.1 ≤ action) :
    Choices.latest (Choices.insert (action, target) choices) = target := by
  cases choices with
  | nil => rfl
  | cons c choices =>
    rw [Choices.insert, if_pos (h c mem_cons_self)]
    rfl

/-- What is chosen already. -/
theorem latest_insert_selected {choices : Choices} {action : Nat} {target : Option Nat} (h : target = choices.latest) :
    Choices.latest (Choices.insert (action, target) choices) = target := by
  cases choices with
  | nil => rfl
  | cons c choices =>
    rw [Choices.insert]
    split
    · rfl
    · exact h.symm

theorem mem_insert {c d : Nat × Option Nat} {choices : Choices} (h : d ∈ Choices.insert c choices) :
    d = c ∨ d ∈ choices := by
  induction choices with
  | nil => exact .inl (mem_singleton.mp h)
  | cons e choices ih =>
    rw [Choices.insert] at h
    split at h
    · exact mem_cons.mp h
    · obtain rfl | h := mem_cons.mp h
      · exact .inr mem_cons_self
      · exact (ih h).imp_right (mem_cons_of_mem e)

/-- The store, and what its user is owed: the choices; the threads whose creation has completed, each with the
number of the next action then, as long as none is archived or reported missing; and the submissions whose message
neither has been replaced by the persisted version nor has failed, each with its thread. -/
structure Session where
  store : ConversationStore := {}
  choices : Choices := []
  created : List (Nat × Nat) := []
  unsettled : List (Nat × Nat) := []

namespace Session
variable (w : Session)

def choicesAfter (p : Pending) (answer : Answer) : Choices :=
  match w.store.loadFails p answer with
  | some _ => w.choices.filter (·.1 ≠ p.action)
  | none => (w.store.selects p answer).elim w.choices fun target => Choices.insert (p.action, target) w.choices

/-- An older list tells nothing of a thread; a newer one without it reports it missing. -/
def createdAfter (p : Pending) (answer : Answer) : List (Nat × Nat) :=
  match p.waiting, answer with
  | _, .thread id => (id, w.store.actions) :: w.created
  | _, .threads ids => w.created.filter fun c => c.1 ∈ ids || p.action < c.2
  | .archiveThread id _, .done => w.created.filter (·.1 ≠ id)
  | .loadThread id _, .failed .missing => w.created.filter (·.1 ≠ id)
  | _, _ => w.created

def persisted (submission : Nat) (messages : List Message) : Bool :=
  messages.any fun m => m.id = .server (.stored submission)

def unsettledAfter (p : Pending) (answer : Answer) : List (Nat × Nat) :=
  let rest := w.unsettled.filter fun u =>
    some u.1 ≠ w.store.settles p answer &&
      (w.store.rewrites p answer).all fun t => u.2 ≠ t.1 || !persisted u.1 t.2
  (w.store.begins p answer).toList ++ rest

def userStep (action : UserAction) : Session :=
  { w with
    store := w.store.user action
    choices := match action with
      | .selectThread id => Choices.insert (w.store.actions, some id) w.choices
      | .clearSelection => Choices.insert (w.store.actions, none) w.choices
      | _ => w.choices
    unsettled := match action, w.store.submitting, w.store.selectedThreadId with
      | .submit, false, some threadId =>
        if w.store.submissionGeneration + 1 ∈ w.store.cancelledSubmissions then w.unsettled
        else (w.store.submissionGeneration + 1, threadId) :: w.unsettled
      | _, _, _ => w.unsettled }

def step (w : Session) : StoreStep → Option Session
  | .user action => some (w.userStep action)
  | .complete i answer => w.store.pending[i]?.bind fun p => (w.store.step (.complete i answer)).map fun store =>
    { store
      choices := w.choicesAfter p answer
      created := w.createdAfter p answer
      unsettled := w.unsettledAfter p answer }
  | a => (w.store.step a).map fun store => { w with store }

/-! The order in which answers do no harm. -/

/-- No later choice has taken effect than that of the action which the answer belongs to. -/
def SelectsLast (p : Pending) (answer : Answer) : Prop :=
  ∀ target ∈ (w.store.selects p answer).toList, target = w.store.selectedThreadId ∨ ∀ c ∈ w.choices, c.1 ≤ p.action

/-- A thread's load fails only where the user's other choices select what is selected anyway, or nothing where the
shown thread is missing. -/
def FailsSuperseded (p : Pending) (answer : Answer) : Prop :=
  ∀ load ∈ (w.store.loadFails p answer).toList,
    Choices.latest (w.choices.filter (·.1 ≠ p.action)) = if load.2 then none else w.store.selectedThreadId

/-- A list of threads has all those whose creation has completed since it was asked for. -/
def ListsCreated (p : Pending) : Answer → Prop
  | .threads ids => ∀ c ∈ w.created, p.action < c.2 → c.1 ∈ ids
  | _ => True

/-- A transcript comes with the persisted versions of the messages it takes away. -/
def KeepsMessages (p : Pending) (answer : Answer) : Prop :=
  (∀ t ∈ (w.store.rewrites p answer).toList, ∀ u ∈ w.unsettled, u.2 = t.1 → persisted u.1 t.2 = true) ∧
    match answer with
    | .threads [] => w.unsettled = []
    | _ => True

structure InOrder (p : Pending) (answer : Answer) : Prop where
  selects : w.SelectsLast p answer
  fails : w.FailsSuperseded p answer
  lists : w.ListsCreated p answer
  keeps : w.KeepsMessages p answer

def Orderly (w : Session) : StoreStep → Prop
  | .complete i answer => ∀ p ∈ w.store.pending[i]?.toList, w.InOrder p answer
  | _ => True

/-- The user's last choice is the one that is shown. -/
structure UserWins (w : Session) : Prop where
  selected : w.store.selectedThreadId = w.choices.latest
  listed : ∀ c ∈ w.created, c.1 ∈ w.store.threads
  shown : ∀ u ∈ w.unsettled, ∃ m ∈ w.store.messages u.2, m.id = .optimistic u.1 ∧ m.fromUser = true

namespace UserWins
variable {w : Session} {p : Pending} {answer : Answer} {s' : ConversationStore}

theorem selected_after (h : w.UserWins) (ha : w.store.Answered p answer s') (ho : w.InOrder p answer) :
    s'.selectedThreadId = (w.choicesAfter p answer).latest := by
  have hselects := ho.selects
  have hfails := ho.fails
  rw [SelectsLast] at hselects
  rw [FailsSuperseded] at hfails
  rw [ha.selected, choicesAfter]
  cases hload : w.store.loadFails p answer with
  | some load =>
    rw [hload] at hfails
    exact (hfails load (mem_singleton_self load)).symm
  | none =>
    cases htarget : w.store.selects p answer with
    | none => exact h.selected
    | some target =>
      rw [htarget] at hselects
      obtain heq | hlast := hselects target (mem_singleton_self target)
      · exact (latest_insert_selected (heq.trans h.selected)).symm
      · exact (latest_insert_last hlast).symm

/-- Whoever is still counted among the created threads is new, or no reason to remove it has come. -/
theorem createdAfter_cases (hlists : w.ListsCreated p answer) {c : Nat × Nat} (hc : c ∈ w.createdAfter p answer) :
    answer = .thread c.1 ∨ c ∈ w.created ∧ ¬ConversationStore.removes p answer c.1 := by
  obtain ⟨action, waiting⟩ := p
  cases answer with
  | thread id =>
    obtain rfl | hc := mem_cons.mp hc
    · exact .inl rfl
    · refine .inr ⟨hc, ?_⟩
      rintro (⟨_, h, -⟩ | ⟨_, -, h⟩ | ⟨_, -, h⟩) <;> cases h
  | threads ids =>
    obtain ⟨hmem, hkept⟩ := mem_filter.mp hc
    have hid : c.1 ∈ ids := by
      obtain hid | hlate := Bool.or_eq_true_iff.mp hkept
      · exact of_decide_eq_true hid
      · exact hlists c hmem (of_decide_eq_true hlate)
    refine .inr ⟨hmem, ?_⟩
    rintro (⟨_, h, hnot⟩ | ⟨_, -, h⟩ | ⟨_, -, h⟩)
    · cases h
      exact hnot hid
    · cases h
    · cases h
  | done =>
    right
    cases waiting with
    | archiveThread id wasSelected =>
      obtain ⟨hmem, hne⟩ := mem_filter.mp hc
      refine ⟨hmem, ?_⟩
      rintro (⟨_, h, -⟩ | ⟨_, h, -⟩ | ⟨_, -, h⟩)
      · cases h
      · cases h
        exact of_decide_eq_true hne rfl
      · cases h
    | _ =>
      refine ⟨hc, ?_⟩
      rintro (⟨_, h, -⟩ | ⟨_, h, -⟩ | ⟨_, -, h⟩) <;> cases h
  | failed why =>
    right
    cases waiting with
    | loadThread id generation =>
      cases why with
      | missing =>
        obtain ⟨hmem, hne⟩ := mem_filter.mp hc
        refine ⟨hmem, ?_⟩
        rintro (⟨_, h, -⟩ | ⟨_, -, h⟩ | ⟨_, h, -⟩)
        · cases h
        · cases h
        · cases h
          exact of_decide_eq_true hne rfl
      | _ =>
        refine ⟨hc, ?_⟩
        rintro (⟨_, h, -⟩ | ⟨_, -, h⟩ | ⟨_, -, h⟩) <;> cases h
    | _ =>
      have hmem : c ∈ w.created := by cases why <;> exact hc
      refine ⟨hmem, ?_⟩
      rintro (⟨_, h, -⟩ | ⟨_, -, h⟩ | ⟨_, h, -⟩) <;> cases h
  | _ =>
    right
    refine ⟨hc, ?_⟩
    rintro (⟨_, h, -⟩ | ⟨_, -, h⟩ | ⟨_, -, h⟩) <;> cases h

section
variable (h : w.UserWins)
include h

theorem listed_after (ha : w.store.Answered p answer s') (ho : w.InOrder p answer) :
    ∀ c ∈ w.createdAfter p answer, c.1 ∈ s'.threads := by
  intro c hc
  obtain hnew | ⟨hmem, hkept⟩ := createdAfter_cases ho.lists hc
  · exact ha.added c.1 hnew
  · exact (ha.listed c.1 (h.listed c hmem)).resolve_right hkept

theorem shown_after (ha : w.store.Answered p answer s') (ho : w.InOrder p answer) :
    ∀ u ∈ w.unsettledAfter p answer, ∃ m ∈ s'.messages u.2, m.id = .optimistic u.1 ∧ m.fromUser = true := by
  intro u hu
  obtain hnew | hold := mem_append.mp hu
  · exact ha.begun u (mem_toList.mp hnew)
  · obtain ⟨hmem, hopen⟩ := mem_filter.mp hold
    obtain ⟨hsettles, hrewrites⟩ := Bool.and_eq_true_iff.mp hopen
    obtain ⟨m, hm, hid, huser⟩ := h.shown u hmem
    refine ⟨m, (ha.shown u.2 m hm).resolve_right ?_, hid, huser⟩
    obtain ⟨htranscripts, hemptied⟩ := ho.keeps
    rintro (⟨messages, hrewritten⟩ | rfl | ⟨generation, hsettled, hgeneration⟩)
    · have hpersisted := htranscripts (u.2, messages) (mem_toList.mpr hrewritten) u hmem rfl
      rw [hrewritten] at hrewrites
      simp [hpersisted] at hrewrites
    · rw [hemptied] at hmem
      exact not_mem_nil hmem
    · rw [hid] at hgeneration
      cases hgeneration
      exact of_decide_eq_true hsettles hsettled.symm

theorem complete {i : Nat} {w' : Session} (ho : w.Orderly (.complete i answer))
    (hs : w.step (.complete i answer) = some w') : w'.UserWins := by
  obtain ⟨p, hp, hs⟩ := bind_eq_some_iff.mp hs
  obtain ⟨s', hs', rfl⟩ := map_eq_some_iff.mp hs
  rw [ConversationStore.step, hp, bind_some] at hs'
  have hanswer := ConversationStore.answer_answered hs'
  have ha : w.store.Answered p answer s' :=
    ⟨hanswer.selected, hanswer.listed, hanswer.added, hanswer.shown, hanswer.begun⟩
  have hin : w.InOrder p answer := ho p (mem_toList.mpr hp)
  exact ⟨h.selected_after ha hin, h.listed_after ha hin, h.shown_after ha hin⟩

/-- `submit` where a thread is selected. -/
theorem submit_selected {threadId : Nat} (hsubmitting : w.store.submitting = false)
    (hselected : w.store.selectedThreadId = some threadId) : (w.userStep .submit).UserWins := by
  let generation := w.store.submissionGeneration + 1
  let before : ConversationStore := { w.store with submissionGeneration := generation }
  have hidle : w.store.submitting ≠ true := hsubmitting ▸ Bool.false_ne_true
  have hstore : w.store.submit w.store.actions = before.sendMessage w.store.actions generation threadId :=
    ConversationStore.submit_some hidle hselected
  have hunsettled : (w.userStep .submit).unsettled =
      if generation ∈ w.store.cancelledSubmissions then w.unsettled else (generation, threadId) :: w.unsettled := by
    simp only [userStep, hsubmitting, hselected, generation]
  obtain ⟨hkept, hthreads, hmessages⟩ := before.sendMessage_cases w.store.actions generation threadId
  refine ⟨?_, fun c hc => ?_, fun u hu => ?_⟩
  · change (w.store.submit w.store.actions).selectedThreadId = _
    rw [hstore, hkept]
    exact h.selected
  · change c.1 ∈ (w.store.submit w.store.actions).threads
    rw [hstore, hthreads]
    exact h.listed c hc
  · change ∃ m ∈ (w.store.submit w.store.actions).messages u.2, _
    rw [hunsettled] at hu
    rw [hstore, hmessages]
    split at hu
    · next hcancelled =>
      rw [if_pos hcancelled]
      exact h.shown u hu
    · next hkeeps =>
      rw [if_neg hkeeps]
      by_cases hthread : u.2 = threadId
      · rw [hthread, Function.update_self]
        obtain rfl | hold := mem_cons.mp hu
        · exact ⟨_, mem_append_right _ mem_cons_self, rfl, rfl⟩
        · obtain ⟨m, hm, hid, huser⟩ := h.shown u hold
          exact ⟨m, mem_append_left _ (hthread ▸ hm), hid, huser⟩
      · rw [Function.update_of_ne hthread]
        obtain rfl | hold := mem_cons.mp hu
        · exact absurd rfl hthread
        · exact h.shown u hold

theorem submit : (w.userStep .submit).UserWins := by
  cases hsubmitting : w.store.submitting with
  | true =>
    have hsame : w.store.submit w.store.actions = w.store := by rw [ConversationStore.submit, if_pos hsubmitting]
    have hstore : w.userStep .submit = { w with store := { w.store with actions := w.store.actions + 1 } } := by
      simp only [userStep, ConversationStore.user, hsame, hsubmitting]
    rw [hstore]
    exact ⟨h.selected, h.listed, h.shown⟩
  | false =>
    cases hselected : w.store.selectedThreadId with
    | some threadId => exact h.submit_selected hsubmitting hselected
    | none =>
      have hsame : w.store.Holds (w.store.submit w.store.actions) := by
        rw [ConversationStore.submit_none (hsubmitting ▸ Bool.false_ne_true) hselected]
        exact .of_eq ⟨rfl, rfl, rfl⟩
      have hunsettled : (w.userStep .submit).unsettled = w.unsettled := by
        simp only [userStep, hsubmitting, hselected]
      refine ⟨hsame.selected.trans h.selected, fun c hc => hsame.threads ▸ h.listed c hc, fun u hu => ?_⟩
      rw [hunsettled] at hu
      obtain ⟨m, hm, hid, huser⟩ := h.shown u hu
      exact ⟨m, hsame.shown u.2 u.1 m hm hid huser, hid, huser⟩

theorem user (hchoices : ∀ c ∈ w.choices, c.1 ≤ w.store.actions) (action : UserAction) :
    (w.userStep action).UserWins := by
  cases action with
  | loadThreads => exact ⟨h.selected, h.listed, h.shown⟩
  | createThread => exact ⟨h.selected, h.listed, h.shown⟩
  | archiveThread id => exact ⟨h.selected, h.listed, h.shown⟩
  | selectThread id => exact ⟨(latest_insert_last hchoices).symm, h.listed, h.shown⟩
  | clearSelection => exact ⟨(latest_insert_last hchoices).symm, h.listed, h.shown⟩
  | cancelRun =>
    have hsame : w.store.Holds (w.store.cancelRun w.store.actions) := by
      rw [ConversationStore.cancelRun]
      split
      · split
        · exact .of_eq ⟨rfl, rfl, rfl⟩
        · cases w.store.selectedThreadId with
          | none => exact .of_eq ⟨rfl, rfl, rfl⟩
          | some id => exact .of_eq ⟨rfl, rfl, rfl⟩
      · exact .of_eq ⟨rfl, rfl, rfl⟩
    refine ⟨hsame.selected.trans h.selected, fun c hc => hsame.threads ▸ h.listed c hc, fun u hu => ?_⟩
    obtain ⟨m, hm, hid, huser⟩ := h.shown u hu
    exact ⟨m, hsame.shown u.2 u.1 m hm hid huser, hid, huser⟩
  | submit => exact h.submit

/-- An event of a run, or the end of its stream. -/
theorem holds (hs : w.store.Holds s') : ({ w with store := s' } : Session).UserWins where
  selected := hs.selected.trans h.selected
  listed c hc := hs.threads ▸ h.listed c hc
  shown u hu := by
    obtain ⟨m, hm, hid, huser⟩ := h.shown u hu
    exact ⟨m, hs.shown u.2 u.1 m hm hid huser, hid, huser⟩

end

end UserWins

/-- The numbers of the requests and of the choices are those of actions of the user. -/
structure Numbered (w : Session) : Prop where
  fits : w.store.Fits w.store.actions w.store.actions
  positive : 0 < w.store.actions
  choices : ∀ c ∈ w.choices, c.1 < w.store.actions

variable {w w' : Session} {a : StoreStep}

theorem Numbered.complete {i : Nat} {answer : Answer} (h : w.Numbered) (hs : w.step (.complete i answer) = some w') :
    w'.Numbered := by
  obtain ⟨p, hp, hs⟩ := bind_eq_some_iff.mp hs
  obtain ⟨s', hs', rfl⟩ := map_eq_some_iff.mp hs
  rw [ConversationStore.step, hp, bind_some] at hs'
  have haction : p.action < w.store.actions := h.fits.1 p (mem_of_getElem? hp)
  have herased : ({ w.store with pending := w.store.pending.eraseIdx i } : ConversationStore).Fits w.store.actions
      w.store.actions := ⟨fun q hq => h.fits.1 q (mem_of_mem_eraseIdx hq), rfl⟩
  have hfits := herased.answer haction hs'
  have hactions : s'.actions = w.store.actions := hfits.2
  have hchoices : ∀ c ∈ w.choicesAfter p answer, c.1 < w.store.actions := by
    intro c hc
    rw [choicesAfter] at hc
    split at hc
    · exact h.choices c (mem_filter.mp hc).1
    · cases hselects : w.store.selects p answer with
      | none =>
        rw [hselects] at hc
        exact h.choices c hc
      | some target =>
        rw [hselects] at hc
        obtain rfl | hc := mem_insert hc
        · exact haction
        · exact h.choices c hc
  exact ⟨hactions.symm ▸ hfits, hactions.symm ▸ h.positive, fun c hc => hactions.symm ▸ hchoices c hc⟩

theorem Numbered.userStep (h : w.Numbered) (action : UserAction) : (w.userStep action).Numbered := by
  have hactions : (w.userStep action).store.actions = w.store.actions + 1 := rfl
  have hold : ∀ c ∈ w.choices, c.1 < w.store.actions + 1 := fun c hc => Nat.lt_succ_of_lt (h.choices c hc)
  have hnew : ∀ target, ∀ c ∈ Choices.insert (w.store.actions, target) w.choices, c.1 < w.store.actions + 1 := by
    intro target c hc
    obtain rfl | hc := mem_insert hc
    · exact Nat.lt_succ_self _
    · exact hold c hc
  refine ⟨h.fits.user, Nat.succ_pos _, ?_⟩
  rw [hactions]
  cases action with
  | selectThread id => exact hnew (some id)
  | clearSelection => exact hnew none
  | _ => exact hold

theorem Numbered.kept {s' : ConversationStore} (h : w.Numbered) (hs : s'.Fits w.store.actions w.store.actions) :
    ({ w with store := s' } : Session).Numbered :=
  have hactions : s'.actions = w.store.actions := hs.2
  ⟨hactions.symm ▸ hs, hactions.symm ▸ h.positive, fun c hc => hactions.symm ▸ h.choices c hc⟩

theorem step_wins (h : w.UserWins ∧ w.Numbered) (ho : w.Orderly a) (hs : w.step a = some w') :
    w'.UserWins ∧ w'.Numbered := by
  cases a with
  | user action =>
    cases hs
    exact ⟨h.1.user (fun c hc => Nat.le_of_lt (h.2.choices c hc)) action, h.2.userStep action⟩
  | complete i answer => exact ⟨h.1.complete ho hs, h.2.complete hs⟩
  | event k event =>
    obtain ⟨s', hs', rfl⟩ := map_eq_some_iff.mp hs
    obtain ⟨sub, -, rfl⟩ := map_eq_some_iff.mp hs'
    split
    · exact ⟨h.1.holds (ConversationStore.applyRunEvent_holds event),
        h.2.kept (h.2.fits.applyRunEvent h.2.positive event)⟩
    · exact h
  | close k =>
    obtain ⟨s', hs', rfl⟩ := map_eq_some_iff.mp hs
    obtain ⟨sub, -, rfl⟩ := map_eq_some_iff.mp hs'
    have hclosed : w.store.Holds { w.store with opened := w.store.opened.set k { sub with closed := true } } :=
      .of_eq ⟨rfl, rfl, rfl⟩
    have hfits : ({ w.store with opened := w.store.opened.set k { sub with closed := true } } : ConversationStore).Fits
        w.store.actions w.store.actions := h.2.fits
    exact ⟨h.1.holds (hclosed.trans (ConversationStore.streamClosed_holds sub)), h.2.kept (hfits.streamClosed sub)⟩

/-- As long as every answer comes in order, the user's last choice is selected, no created thread is dropped from
the list, and no optimistic message from its transcript. -/
theorem user_wins (steps : List StoreStep) (w : Session) (hrun : Machine.exec step {} steps = some w)
    (horder : Machine.Along step Orderly {} steps) : w.UserWins := by
  have hstart : ({} : Session).UserWins ∧ ({} : Session).Numbered :=
    ⟨⟨rfl, nofun, nofun⟩, ⟨⟨nofun, rfl⟩, Nat.one_pos, nofun⟩⟩
  exact (Machine.invariant_along (fun _ _ _ h ho hs => step_wins h ho hs) hstart horder hrun).1

/-! Runs. -/

instance (p : Pending) (answer : Answer) : Decidable (w.ListsCreated p answer) :=
  match answer with
  | .threads ids => inferInstanceAs (Decidable (∀ c ∈ w.created, p.action < c.2 → c.1 ∈ ids))
  | .thread _ | .history _ _ | .run _ | .done | .failed _ => isTrue trivial

instance (p : Pending) (answer : Answer) : Decidable (w.KeepsMessages p answer) :=
  have : Decidable (match answer with | .threads [] => w.unsettled = [] | _ => True) :=
    match answer with
    | .threads [] => inferInstanceAs (Decidable (w.unsettled = []))
    | .threads (_ :: _) | .thread _ | .history _ _ | .run _ | .done | .failed _ => isTrue trivial
  inferInstanceAs (Decidable (_ ∧ _))

instance (p : Pending) (answer : Answer) : Decidable (w.InOrder p answer) :=
  have : Decidable (w.SelectsLast p answer) := by
    unfold SelectsLast
    infer_instance
  have : Decidable (w.FailsSuperseded p answer) := by
    unfold FailsSuperseded
    infer_instance
  decidable_of_iff (w.SelectsLast p answer ∧ w.FailsSuperseded p answer ∧ w.ListsCreated p answer ∧
    w.KeepsMessages p answer) ⟨fun h => ⟨h.1, h.2.1, h.2.2.1, h.2.2.2⟩, fun h => ⟨h.1, h.2, h.3, h.4⟩⟩

instance (a : StoreStep) : Decidable (w.Orderly a) :=
  match a with
  | .complete i answer => inferInstanceAs (Decidable (∀ p ∈ w.store.pending[i]?.toList, w.InOrder p answer))
  | .user _ | .event _ _ | .close _ => isTrue trivial

/-- A message from an empty selection, its run, a list that is asked for behind it and has the new thread, and an
old thread whose load is given up for the first one. -/
def messageAndReturn : List StoreStep :=
  [.user .submit, .complete 0 (.thread 4), .complete 0 (.run 9), .user .loadThreads, .complete 0 (.threads [4, 2]),
    .event 0 { threadId := 4, runId := some 9, kind := .answer true, streamed := some (.other 1) },
    .user (.selectThread 2), .user (.selectThread 4), .complete 1 (.failed .other),
    .complete 1 (.history [{ id := .server (.stored 1), fromUser := true, runId := some 9 }] [9])]

theorem user_wins_messageAndReturn : ∃ w, Machine.exec step {} messageAndReturn = some w ∧ w.UserWins := by
  have hrun : (Machine.exec step {} messageAndReturn).isSome = true := by decide
  obtain ⟨w, hw⟩ := isSome_iff_exists.mp hrun
  exact ⟨w, hw, user_wins messageAndReturn w hw (by decide)⟩

/-- A thread is created after the user has gone to another one; a list comes that is older than a new thread; and
a transcript without the message that is being submitted. -/
theorem user_loses :
    (∃ w ∈ Machine.exec step {} [.user .createThread, .user (.selectThread 1), .complete 0 (.thread 2)],
      w.store.selectedThreadId = some 2 ∧ w.choices.latest = some 1) ∧
    (∃ w ∈ Machine.exec step {} [.user .loadThreads, .user .createThread, .complete 1 (.thread 5),
        .complete 0 (.threads [3])],
      ∃ c ∈ w.created, c.1 ∉ w.store.threads) ∧
    ∃ w ∈ Machine.exec step {} [.user .submit, .complete 0 (.thread 1), .user (.selectThread 1),
        .complete 1 (.history [] [])],
      ∃ u ∈ w.unsettled, ∀ m ∈ w.store.messages u.2, m.id ≠ .optimistic u.1 := by
  decide

end Session
end SelericSwarm.Client
