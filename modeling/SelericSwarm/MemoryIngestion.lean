import SelericSwarm.MemoryExpiry
import SelericSwarm.Supersession

/-! A batch of candidates: what each of them meets in the store, and what the whole batch leaves. -/
open List Option

namespace SelericSwarm
open Keyed
open MemorySession (plainTexts)

namespace StoredMemory

def live (m : StoredMemory) : Bool := m.status ∉ [.superseded, .archived, .deleted]

def sameAs (m candidate : StoredMemory) : Bool :=
  m.normalizedContent = candidate.normalizedContent && m.type = candidate.type

/-- In the scope that the candidate's listing has. -/
def within (candidate m : StoredMemory) : Bool :=
  m.workspaceId = candidate.workspaceId && m.ownerUserId = candidate.ownerUserId && m.deletedAt = none &&
    candidate.projectId.all (fun id => m.projectId.all (· = id)) &&
    candidate.threadId.all (fun id => m.threadId.all (· = id))

/-- A later state of a record: the sources may have become more. -/
structure Kept (m m' : StoredMemory) : Prop where
  id : m'.id = m.id
  within : ∀ candidate : StoredMemory, candidate.within m' = candidate.within m
  live : m'.live = m.live
  normalizedContent : m'.normalizedContent = m.normalizedContent
  type : m'.type = m.type
  messages : m.sourceMessageIds ⊆ m'.sourceMessageIds
  evidence : m.sourceEvidenceIds ⊆ m'.sourceEvidenceIds

variable {m m' m'' candidate : StoredMemory}

theorem Kept.refl (m : StoredMemory) : m.Kept m :=
  ⟨rfl, fun _ => rfl, rfl, rfl, rfl, List.Subset.refl _, List.Subset.refl _⟩

theorem Kept.trans (h : m.Kept m') (h' : m'.Kept m'') : m.Kept m'' where
  id := h'.id.trans h.id
  within candidate := (h'.within candidate).trans (h.within candidate)
  live := h'.live.trans h.live
  normalizedContent := h'.normalizedContent.trans h.normalizedContent
  type := h'.type.trans h.type
  messages := List.Subset.trans h.messages h'.messages
  evidence := List.Subset.trans h.evidence h'.evidence

theorem Kept.sameAs (h : m.Kept m') (candidate : StoredMemory) : m'.sameAs candidate = m.sameAs candidate := by
  simp only [StoredMemory.sameAs, h.normalizedContent, h.type]

theorem sameAs_comm (m m' : StoredMemory) : m.sameAs m' = m'.sameAs m := by
  simp only [sameAs, eq_comm]

end StoredMemory

namespace MemoryStore
variable (texts : MemoryTexts) (now : Moment)

def page (s : MemoryStore) (candidate : StoredMemory) : List StoredMemory :=
  s.list candidate.workspaceId candidate.ownerUserId candidate.projectId candidate.threadId true 500 now

def duplicate? (s : MemoryStore) (candidate : StoredMemory) : Option StoredMemory :=
  if s.optedOut candidate.workspaceId candidate.ownerUserId then none
  else (s.page now candidate).find? (·.absorbs (candidate.normalized texts))

/-- The memory that `supersedes_id` and `contradicts_id` are set to. -/
def conflict? (s : MemoryStore) (candidate : StoredMemory) : Option StoredMemory :=
  if s.optedOut candidate.workspaceId candidate.ownerUserId ∨ (s.duplicate? texts now candidate).isSome then none
  else (s.page now candidate).find? (·.contradicts texts (candidate.normalized texts))

def record (s : MemoryStore) (candidate : StoredMemory) : StoredMemory :=
  (s.conflict? texts now candidate).elim (candidate.normalized texts) (candidate.normalized texts).against

def turns : List StoredMemory → MemoryStore → List (MemoryStore × StoredMemory)
  | [], _ => []
  | candidate :: candidates, s => (s, candidate) ::
    match s.ingestCandidate texts candidate now with
    | none => []
    | some (_, s) => turns candidates s

/-- No two live memories of the candidate's scope say the same. -/
def Distinct (candidate : StoredMemory) (s : MemoryStore) : Prop :=
  ∀ m ∈ s.items.rows, ∀ m' ∈ s.items.rows, candidate.within m = true → candidate.within m' = true →
    m.live = true → m'.live = true → m.sameAs m' = true → m.id = m'.id

/-- What is asked of a batch. -/
structure Ingested (candidates : List StoredMemory) (s s' : MemoryStore) : Prop where
  distinct : ∀ candidate ∈ candidates, Distinct candidate s → Distinct candidate s'
  merged : ∀ turn ∈ turns texts now candidates s, ∀ duplicate, turn.1.duplicate? texts now turn.2 = some duplicate →
    (turn.1.ingestCandidate texts turn.2 now).isSome → ∃ m ∈ s'.items.rows, m.id = duplicate.id ∧
      duplicate.sourceMessageIds ⊆ m.sourceMessageIds ∧ duplicate.sourceEvidenceIds ⊆ m.sourceEvidenceIds ∧
      turn.2.sourceMessageIds ++ (truthy turn.2.sourceMessageId).toList ⊆ m.sourceMessageIds ∧
      turn.2.sourceEvidenceIds ⊆ m.sourceEvidenceIds
  live : ∀ turn ∈ turns texts now candidates s, ∀ conflict, turn.1.conflict? texts now turn.2 = some conflict →
    conflict.live = true

/-- A candidate that no live memory of its page takes in contradicts no dead one before all others, and is
said by no live memory beyond its page that is in the scope of a candidate together with it. -/
structure Clear (candidates : List StoredMemory) (s t : MemoryStore) (candidate : StoredMemory) : Prop where
  conflict : ∀ front conflict back, t.page now candidate = front ++ conflict :: back →
    conflict.contradicts texts (candidate.normalized texts) = true → conflict.live = false →
    ∃ other ∈ front, other.contradicts texts (candidate.normalized texts) = true
  duplicate : t.items.get? candidate.id = none →
    (candidate.live = true ∨ ∃ m ∈ t.page now candidate, m.contradicts texts (candidate.normalized texts) = true) →
    ∀ other ∈ candidates, Distinct other s → other.within candidate = true →
      ∀ m ∈ t.items.rows, other.within m = true → m.live = true → m.sameAs (candidate.normalized texts) = false

/-- The candidate is looked at, and no live memory of its page takes it in. -/
def Unabsorbed (t : MemoryStore) (candidate : StoredMemory) : Prop :=
  t.optedOut candidate.workspaceId candidate.ownerUserId = false ∧
    ∀ m ∈ t.page now candidate, m.absorbs (candidate.normalized texts) = false

/-! One turn. -/

variable {texts now} {s s' t t' : MemoryStore} {candidate m m' : StoredMemory} {candidates : List StoredMemory}
  {created : Option StoredMemory}

theorem kept_observed {observed : StoredMemory} (h : m.observed texts candidate now = some observed) : m.Kept observed := by
  obtain ⟨count, -, rfl⟩ := map_eq_some_iff.mp h
  refine ⟨rfl, fun _ => rfl, rfl, rfl, rfl, fun id hid => ?_, fun id hid => ?_⟩
  · exact mem_fromKeys.mpr (mem_append_left _ (mem_append_left _ hid))
  · exact mem_fromKeys.mpr (mem_append_left _ hid)

theorem sources_observed {observed : StoredMemory} (h : m.observed texts (candidate.normalized texts) now = some observed) :
    candidate.sourceMessageIds ++ (truthy candidate.sourceMessageId).toList ⊆ observed.sourceMessageIds ∧
      candidate.sourceEvidenceIds ⊆ observed.sourceEvidenceIds := by
  obtain ⟨count, -, rfl⟩ := map_eq_some_iff.mp h
  refine ⟨fun id hid => mem_fromKeys.mpr ?_, fun id hid => mem_fromKeys.mpr (mem_append_right _ hid)⟩
  rw [append_assoc]
  exact mem_append_right _ hid

theorem unabsorbed_iff : Unabsorbed texts now t candidate ↔
    t.optedOut candidate.workspaceId candidate.ownerUserId = false ∧ t.duplicate? texts now candidate = none := by
  refine and_congr_right fun hin => ?_
  rw [duplicate?, if_neg (by simp [hin]), List.find?_eq_none]
  simp only [Bool.not_eq_true]

theorem conflict?_eq (h : Unabsorbed texts now t candidate) : t.conflict? texts now candidate =
    (t.page now candidate).find? (·.contradicts texts (candidate.normalized texts)) := by
  obtain ⟨hin, hduplicate⟩ := unabsorbed_iff.mp h
  rw [conflict?, if_neg (by simp [hin, hduplicate])]

theorem ingestCandidate_turn (h : t.ingestCandidate texts candidate now = some (created, t')) :
    (t.optedOut candidate.workspaceId candidate.ownerUserId = true ∧ t' = t) ∨
    (∃ duplicate observed, t.duplicate? texts now candidate = some duplicate ∧
      duplicate.observed texts (candidate.normalized texts) now = some observed ∧
      t' = { t with items := t.items.put observed }) ∨
    (Unabsorbed texts now t candidate ∧ t' = (t.create (t.record texts now candidate)).2) := by
  unfold ingestCandidate at h
  split at h
  next hout =>
    obtain ⟨-, rfl⟩ := Prod.mk.inj (Option.some.inj h)
    exact Or.inl ⟨hout, rfl⟩
  next hin =>
    have hpage : t.duplicate? texts now candidate = (t.page now candidate).find? (·.absorbs (candidate.normalized texts)) :=
      if_neg hin
    dsimp only at h
    split at h
    next duplicate hduplicate =>
      obtain ⟨observed, hobserved, h⟩ := bind_eq_some_iff.mp h
      have hrow := (mem_list (List.mem_of_find?_eq_some hduplicate)).1
      have hget : t.items.get? observed.id = some duplicate := by
        rw [(kept_observed hobserved).id]
        exact Table.get?_of_mem hrow
      have hupdate : t.update observed = (.ok observed, { t with items := t.items.put observed }) := by
        obtain ⟨_, _, _, rfl⟩ := observed_eq hobserved
        rw [update, hget]
        exact if_pos ⟨rfl, rfl⟩
      rw [hupdate] at h
      obtain ⟨-, rfl⟩ := Prod.mk.inj (Option.some.inj h)
      exact Or.inr (Or.inl ⟨duplicate, observed, hpage.trans hduplicate, hobserved, rfl⟩)
    next hnone =>
      obtain ⟨-, rfl⟩ := Prod.mk.inj (Option.some.inj h)
      have hun : Unabsorbed texts now t candidate :=
        unabsorbed_iff.mpr ⟨Bool.eq_false_iff.mpr hin, hpage.trans hnone⟩
      refine Or.inr (Or.inr ⟨hun, ?_⟩)
      rw [record, conflict?_eq hun]
      rfl

theorem duplicate_mem {duplicate : StoredMemory} (h : t.duplicate? texts now candidate = some duplicate) :
    duplicate ∈ t.items.rows := by
  rw [duplicate?] at h
  split at h
  · cases h
  · exact (mem_list (List.mem_of_find?_eq_some h)).1

theorem record_facts (texts : MemoryTexts) (now : Moment) (t : MemoryStore) (candidate : StoredMemory) :
    (t.record texts now candidate).id = candidate.id ∧
      (∀ other : StoredMemory, other.within (t.record texts now candidate) = other.within candidate) ∧
      (t.record texts now candidate).normalizedContent = (candidate.normalized texts).normalizedContent ∧
      (t.record texts now candidate).type = candidate.type := by
  rw [record]
  cases t.conflict? texts now candidate <;> exact ⟨rfl, fun _ => rfl, rfl, rfl⟩

theorem record_sameAs (m : StoredMemory) :
    m.sameAs (t.record texts now candidate) = m.sameAs (candidate.normalized texts) := by
  obtain ⟨-, -, hcontent, htype⟩ := record_facts texts now t candidate
  simp only [StoredMemory.sameAs, hcontent, htype]
  rfl

theorem record_live (h : Unabsorbed texts now t candidate) : (t.record texts now candidate).live = true ↔
    candidate.live = true ∨ ∃ m ∈ t.page now candidate, m.contradicts texts (candidate.normalized texts) = true := by
  rw [record, ← List.find?_isSome, ← conflict?_eq h]
  cases t.conflict? texts now candidate with
  | none => simp [StoredMemory.live, StoredMemory.normalized]
  | some conflict => simp [StoredMemory.live, StoredMemory.against]

section
variable (h : t.ingestCandidate texts candidate now = some (created, t'))
include h

/-- No record is lost. -/
theorem turn_kept (hm : m ∈ t.items.rows) : ∃ m' ∈ t'.items.rows, m.Kept m' := by
  obtain ⟨-, rfl⟩ | ⟨duplicate, observed, hduplicate, hobserved, rfl⟩ | ⟨-, rfl⟩ := ingestCandidate_turn h
  · exact ⟨m, hm, .refl m⟩
  · have hkept := kept_observed hobserved
    by_cases hid : m.id = observed.id
    · obtain rfl := t.items.eq_of_mem hm (duplicate_mem hduplicate) (hid.trans hkept.id)
      exact ⟨observed, Table.mem_put_self _ _, hkept⟩
    · exact ⟨m, Table.mem_put_of_ne hm hid, .refl m⟩
  · refine ⟨m, Table.mem_of_get? ?_ (k := m.id), .refl m⟩
    exact Table.get?_setdefault_of_some (Table.get?_of_mem hm)

theorem turn_new (hm : m' ∈ t'.items.rows) :
    (∃ m ∈ t.items.rows, m.Kept m') ∨
      Unabsorbed texts now t candidate ∧ t.items.get? candidate.id = none ∧ m' = t.record texts now candidate := by
  obtain ⟨-, rfl⟩ | ⟨duplicate, observed, hduplicate, hobserved, rfl⟩ | ⟨hun, rfl⟩ := ingestCandidate_turn h
  · exact Or.inl ⟨m', hm, .refl m'⟩
  · obtain rfl | hm := Table.mem_put hm
    · exact Or.inl ⟨duplicate, duplicate_mem hduplicate, kept_observed hobserved⟩
    · exact Or.inl ⟨m', hm, .refl m'⟩
  · have hid := (record_facts texts now t candidate).1
    cases hget : t.items.get? candidate.id with
    | some stored =>
      have hsame : t.items.setdefault (t.record texts now candidate) = t.items :=
        Table.setdefault_of_get? (hid.symm ▸ hget)
      rw [create, hsame] at hm
      exact Or.inl ⟨m', hm, .refl m'⟩
    | none =>
      obtain rfl | hm := mem_create hm
      · exact Or.inr ⟨hun, rfl, rfl⟩
      · exact Or.inl ⟨m', hm, .refl m'⟩

theorem turn_record (hun : Unabsorbed texts now t candidate) (hnew : t.items.get? candidate.id = none) :
    t.record texts now candidate ∈ t'.items.rows := by
  have hid := (record_facts texts now t candidate).1
  have hturn := ingestCandidate_turn h
  obtain ⟨hin, hduplicate⟩ := unabsorbed_iff.mp hun
  rw [hin, hduplicate] at hturn
  obtain ⟨hout, -⟩ | ⟨_, _, hsome, -⟩ | ⟨-, rfl⟩ := hturn
  · cases hout
  · cases hsome
  · have hput : t.items.setdefault (t.record texts now candidate) = t.items.put (t.record texts now candidate) :=
      Table.setdefault_of_none (hid.symm ▸ hnew)
    rw [create, hput]
    exact Table.mem_put_self _ _

end

theorem Distinct.turn {other : StoredMemory} (h : Distinct other t)
    (hturn : t.ingestCandidate texts candidate now = some (created, t'))
    (hclear : Unabsorbed texts now t candidate → t.items.get? candidate.id = none →
      (t.record texts now candidate).live = true → other.within candidate = true →
      ∀ m ∈ t.items.rows, other.within m = true → m.live = true → m.sameAs (candidate.normalized texts) = false) :
    Distinct other t' := by
  intro m hm m' hm' hwithin hwithin' hlive hlive' hsame
  obtain ⟨hid, hscope, -, -⟩ := record_facts texts now t candidate
  obtain ⟨old, hold, hkept⟩ | ⟨hun, hnew, rfl⟩ := turn_new hturn hm
  · rw [hkept.within] at hwithin
    rw [hkept.live] at hlive
    rw [hkept.sameAs] at hsame
    obtain ⟨old', hold', hkept'⟩ | ⟨hun, hnew, rfl⟩ := turn_new hturn hm'
    · rw [hkept'.within] at hwithin'
      rw [hkept'.live] at hlive'
      rw [StoredMemory.sameAs_comm, hkept'.sameAs, StoredMemory.sameAs_comm] at hsame
      rw [hkept.id, hkept'.id]
      exact h old hold old' hold' hwithin hwithin' hlive hlive' hsame
    · rw [hscope] at hwithin'
      rw [record_sameAs, hclear hun hnew hlive' hwithin' old hold hwithin hlive] at hsame
      cases hsame
  · obtain ⟨old', hold', hkept'⟩ | ⟨-, -, rfl⟩ := turn_new hturn hm'
    · rw [hkept'.within] at hwithin'
      rw [hkept'.live] at hlive'
      rw [StoredMemory.sameAs_comm, hkept'.sameAs, record_sameAs,
        hclear hun hnew hlive (hscope other ▸ hwithin) old' hold' hwithin' hlive'] at hsame
      cases hsame
    · rfl

theorem ingestCandidate_of_unabsorbed (h : Unabsorbed texts now t candidate) :
    ∃ created t', t.ingestCandidate texts candidate now = some (created, t') := by
  obtain ⟨hin, hduplicate⟩ := unabsorbed_iff.mp h
  have hpage : (t.list candidate.workspaceId candidate.ownerUserId candidate.projectId candidate.threadId true 500 now).find?
      (·.absorbs (candidate.normalized texts)) = none := by
    rwa [duplicate?, if_neg (by simp [hin])] at hduplicate
  unfold ingestCandidate
  rw [if_neg (by simp [hin])]
  dsimp only
  split
  next duplicate hsome => cases hpage.symm.trans hsome
  next => exact ⟨_, _, rfl⟩

/-! The batch. -/

theorem ingestCandidates_kept (candidates : List StoredMemory) : ∀ (s : MemoryStore) (m : StoredMemory),
    m ∈ s.items.rows → ∃ m' ∈ (s.ingestCandidates texts now candidates).2.items.rows, m.Kept m' := by
  induction candidates with
  | nil => exact fun _ m hm => ⟨m, hm, .refl m⟩
  | cons candidate candidates ih =>
    intro s m hm
    rw [ingestCandidates]
    cases hturn : s.ingestCandidate texts candidate now with
    | none => exact ⟨m, hm, .refl m⟩
    | some result =>
      obtain ⟨m', hm', hkept⟩ := turn_kept hturn hm
      obtain ⟨m'', hm'', hkept'⟩ := ih result.2 m' hm'
      exact ⟨m'', hm'', hkept.trans hkept'⟩

theorem turns_kept (candidates : List StoredMemory) : ∀ s : MemoryStore, (t, candidate) ∈ turns texts now candidates s →
    t.ingestCandidate texts candidate now = some (created, t') → m ∈ t'.items.rows →
    ∃ m' ∈ (s.ingestCandidates texts now candidates).2.items.rows, m.Kept m' := by
  induction candidates with
  | nil => exact fun _ hturn => absurd hturn not_mem_nil
  | cons first candidates ih =>
    intro s hmem hturn hm
    rw [turns] at hmem
    rw [ingestCandidates]
    obtain heq | hmem := mem_cons.mp hmem
    · obtain ⟨rfl, rfl⟩ := Prod.mk.inj heq
      rw [hturn]
      exact ingestCandidates_kept candidates t' m hm
    · cases hfirst : s.ingestCandidate texts first now with
      | none =>
        rw [hfirst] at hmem
        cases hmem
      | some result =>
        rw [hfirst] at hmem
        exact ih result.2 hmem hturn hm

theorem Distinct.run {other : StoredMemory} (candidates : List StoredMemory) : ∀ s : MemoryStore, Distinct other s →
    (∀ turn ∈ turns texts now candidates s, Unabsorbed texts now turn.1 turn.2 → turn.1.items.get? turn.2.id = none →
      (turn.1.record texts now turn.2).live = true → other.within turn.2 = true →
      ∀ m ∈ turn.1.items.rows, other.within m = true → m.live = true → m.sameAs (turn.2.normalized texts) = false) →
    Distinct other (s.ingestCandidates texts now candidates).2 := by
  induction candidates with
  | nil => exact fun _ h _ => h
  | cons candidate candidates ih =>
    intro s h hclear
    rw [ingestCandidates]
    rw [turns] at hclear
    cases hturn : s.ingestCandidate texts candidate now with
    | none => exact h
    | some result =>
      have hfirst := hclear (s, candidate) mem_cons_self
      refine ih result.2 (h.turn hturn hfirst) fun turn hmem => hclear turn (mem_cons_of_mem _ ?_)
      rw [hturn]
      exact hmem

theorem unabsorbed_of_conflict {conflict : StoredMemory} (h : t.conflict? texts now candidate = some conflict) :
    Unabsorbed texts now t candidate := by
  rw [conflict?] at h
  split at h
  · cases h
  · next hfree =>
    rw [not_or, Bool.not_eq_true, Bool.not_eq_true, isSome_eq_false_iff, isNone_iff_eq_none] at hfree
    exact unabsorbed_iff.mpr hfree

/-- A batch keeps live memories apart and sets no link to a dead memory exactly when each candidate that no live
memory of its page takes in is clear. -/
theorem ingestCandidates_iff (texts : MemoryTexts) (now : Moment) (s : MemoryStore) (candidates : List StoredMemory) :
    Ingested texts now candidates s (s.ingestCandidates texts now candidates).2 ↔
      ∀ turn ∈ turns texts now candidates s, Unabsorbed texts now turn.1 turn.2 →
        Clear texts now candidates s turn.1 turn.2 := by
  constructor
  · rintro h ⟨t, candidate⟩ hmem hun
    refine ⟨fun front conflict back hpage hcontradicts hdead => ?_, ?_⟩
    · by_contra hfirst
      have hfind : (t.page now candidate).find? (·.contradicts texts (candidate.normalized texts)) = some conflict := by
        refine List.find?_eq_some_iff_append.mpr ⟨hcontradicts, front, back, hpage, fun other hother => ?_⟩
        rw [Bool.not_eq_true']
        exact Bool.eq_false_iff.mpr fun hother' => hfirst ⟨other, hother, hother'⟩
      have hlive := h.live (t, candidate) hmem conflict ((conflict?_eq hun).trans hfind)
      rw [hlive] at hdead
      cases hdead
    · intro hnew hlive other hother hdistinct hwithin m hm hwithin' hlive'
      obtain ⟨created, t', hturn⟩ := ingestCandidate_of_unabsorbed hun
      obtain ⟨hid, hscope, -, -⟩ := record_facts texts now t candidate
      refine Bool.eq_false_iff.mpr fun hsame => ?_
      have hrecord : m.sameAs (t.record texts now candidate) = true := (record_sameAs m).trans hsame
      obtain ⟨old, hold, hkept⟩ := turn_kept hturn hm
      obtain ⟨last, hlast, hkept'⟩ := turns_kept candidates s hmem hturn hold
      obtain ⟨new, hnewmem, hkeptnew⟩ := turns_kept candidates s hmem hturn (turn_record hturn hun hnew)
      have hkeptold := hkept.trans hkept'
      have heq : last.id = new.id := by
        refine h.distinct other hother hdistinct last hlast new hnewmem ?_ ?_ ?_ ?_ ?_
        · rw [hkeptold.within, hwithin']
        · rw [hkeptnew.within, hscope, hwithin]
        · rw [hkeptold.live, hlive']
        · rw [hkeptnew.live, (record_live hun).mpr hlive]
        · rw [hkeptold.sameAs, StoredMemory.sameAs_comm, hkeptnew.sameAs, StoredMemory.sameAs_comm, hrecord]
      rw [hkeptold.id, hkeptnew.id, hid] at heq
      have hget := Table.get?_of_mem hm
      rw [heq, hnew] at hget
      cases hget
  · intro h
    refine ⟨fun other hother hdistinct => ?_, ?_, ?_⟩
    · refine hdistinct.run candidates s fun turn hmem hun hnew hlive hwithin => ?_
      exact (h turn hmem hun).duplicate hnew ((record_live hun).mp hlive) other hother hdistinct hwithin
    · rintro ⟨t, candidate⟩ hmem duplicate hduplicate hsome
      obtain ⟨⟨created, t'⟩, hturn⟩ := isSome_iff_exists.mp hsome
      obtain ⟨hout, -⟩ | ⟨found, observed, hfound, hobserved, rfl⟩ | ⟨hun, -⟩ := ingestCandidate_turn hturn
      · rw [duplicate?, if_pos hout] at hduplicate
        cases hduplicate
      · obtain rfl := Option.some.inj (hduplicate.symm.trans hfound)
        obtain ⟨last, hlast, hkept⟩ := turns_kept candidates s hmem hturn (Table.mem_put_self _ _)
        have hobs := kept_observed hobserved
        obtain ⟨hmessages, hevidence⟩ := sources_observed hobserved
        exact ⟨last, hlast, hkept.id.trans hobs.id, List.Subset.trans hobs.messages hkept.messages,
          List.Subset.trans hobs.evidence hkept.evidence, List.Subset.trans hmessages hkept.messages,
          List.Subset.trans hevidence hkept.evidence⟩
      · rw [(unabsorbed_iff.mp hun).2] at hduplicate
        cases hduplicate
    · rintro ⟨t, candidate⟩ hmem conflict hconflict
      have hun := unabsorbed_of_conflict hconflict
      rw [conflict?_eq hun] at hconflict
      obtain ⟨hcontradicts, front, back, hpage, hfront⟩ := List.find?_eq_some_iff_append.mp hconflict
      by_contra hdead
      obtain ⟨other, hother, hother'⟩ := (h (t, candidate) hmem hun).conflict front conflict back hpage hcontradicts
        (Bool.eq_false_iff.mpr hdead)
      have hnot := hfront other hother
      rw [hother'] at hnot
      cases hnot

/-! A candidate that contradicts an archived memory. -/

def archivedStatement : StoredMemory := (statement "a" "dark" 0).val.archived 1

def shelved : MemoryStore := { items := ⟨[archivedStatement], by simp⟩ }

theorem shelved_not_ingested :
    ¬Ingested plainTexts 2 [(statement "b" "not" 2).val] shelved
      (shelved.ingestCandidates plainTexts 2 [(statement "b" "not" 2).val]).2 := by
  intro h
  have hconflict : shelved.conflict? plainTexts 2 (statement "b" "not" 2).val = some archivedStatement := by rfl
  have hlive := h.live (shelved, (statement "b" "not" 2).val) mem_cons_self archivedStatement hconflict
  exact absurd hlive (by decide)

end MemoryStore
end SelericSwarm
