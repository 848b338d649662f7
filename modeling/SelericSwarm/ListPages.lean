import SelericSwarm.Base64
import SelericSwarm.Conversations
import SelericSwarm.Keyset
import Mathlib.Data.Prod.Lex
import Mathlib.Data.String.Basic

/-! `list_page` of the in-memory threads and messages, and the cursors between the pages. -/
open List Option

namespace SelericSwarm
open Keyed

/-- The moment by which the items are ordered, and their id. -/
abbrev PageKey := Moment ×ₗ String

/-- Texts of moments and of JSON lists of two texts; `loads` gives what such a list is unpacked into. -/
structure CursorTexts where
  isoformat : Moment → String
  fromisoformat : String → Option Moment
  dumps : String → String → String
  loads : String → Option (String × String)

/-- What is written is read again. -/
structure CursorTexts.RoundTrip (texts : CursorTexts) : Prop where
  iso : ∀ moment, texts.fromisoformat (texts.isoformat moment) = some moment
  json : ∀ moment itemId, texts.loads (texts.dumps moment itemId) = some (moment, itemId)
  written : ∀ moment itemId, texts.dumps moment itemId ≠ ""

section Cursors
variable (texts : CursorTexts)

/-- `_cursor`. -/
def cursorOf (key : PageKey) : String :=
  let raw := (texts.dumps (texts.isoformat (ofLex key).1) (ofLex key).2).toUTF8
  String.ofList ((Base64.encode raw.data.toList).rdropWhile (· = '='))

def urlsafeB64decode (text : List Char) : Option (List UInt8) :=
  if text.all (·.toNat < 128) then Base64.decode text else none

def decodeCursor : Option String → Except String (Option PageKey)
  | none => .ok none
  | some value =>
    if value = "" then .ok none
    else
      let padded := value.toList ++ List.replicate (-(value.length : Int) % 4).toNat '='
      let key := (urlsafeB64decode padded).bind fun raw => (String.fromUTF8? ⟨raw.toArray⟩).bind fun text =>
        (texts.loads text).bind fun entry => (texts.fromisoformat entry.1).map fun moment => toLex (moment, entry.2)
      match key with
      | none => .error "invalid cursor"
      | some boundary => .ok (some boundary)

variable {α : Type} (key : α → PageKey) (limit : Int)

/-- The end of both `list_page`. -/
def cutPage (items : List α) : List α × Option String :=
  let ordered := items.insertionSort fun a b => key b ≤ key a
  let page := ordered.take (max 1 limit + 1).toNat
  let hasMore := (max 1 limit).toNat < page.length
  let page := page.take (max 1 limit).toNat
  (page, if hasMore then page.getLast?.map fun last => cursorOf texts (key last) else none)

end Cursors

def Thread.pageKey (item : Thread) : PageKey := toLex (item.updatedAt, item.id)

def Message.pageKey (item : Message) : PageKey := toLex (item.createdAt, item.id)

namespace ThreadRepository

def listed (workspaceId userId : String) (includeDeleted : Bool) (item : Thread) : Bool :=
  item.workspaceId = workspaceId && item.ownerUserId = userId && (includeDeleted || item.status ≠ .deleted)

def listPage (texts : CursorTexts) (s : ThreadRepository) (workspaceId userId : String) (limit : Int)
    (cursor : Option String) (includeDeleted : Bool) : Except String (List Thread × Option String) :=
  (decodeCursor texts cursor).map fun boundary => cutPage texts Thread.pageKey limit <|
    s.rows.filter fun item => listed workspaceId userId includeDeleted item && boundary.all (item.pageKey < ·)

end ThreadRepository

namespace MessageRepository

def listPage (texts : CursorTexts) (s : MessageRepository) (threadId : String) (limit : Int)
    (cursor : Option String) : Except String (List Message × Option String) :=
  (decodeCursor texts cursor).map fun boundary => cutPage texts Message.pageKey limit <|
    s.rows.filter fun item => item.threadId = threadId && boundary.all (item.pageKey < ·)

end MessageRepository

/-! Cursors. -/

variable {texts : CursorTexts}

theorem fromUTF8?_toUTF8 (text : String) : String.fromUTF8? ⟨text.toUTF8.data.toList.toArray⟩ = some text := by
  simp only [String.fromUTF8?, Array.toArray_toList, dite_none_right_eq_some]
  exact ⟨text.isValidUTF8, rfl⟩

theorem padded_cursor (bytes : List UInt8) :
    let value := String.ofList ((Base64.encode bytes).rdropWhile (· = '='))
    value.toList ++ List.replicate (-(value.length : Int) % 4).toNat '=' = Base64.encode bytes := by
  intro value
  have hvalue : value.toList = Base64.data bytes := by
    rw [String.toList_ofList, Base64.rstrip_encode]
  have hlength : value.length = (Base64.data bytes).length := by rw [← hvalue, String.length_toList]
  have hpads : (-(value.length : Int) % 4).toNat = (4 - (Base64.data bytes).length % 4) % 4 := by omega
  rw [hvalue, hpads, Base64.encode, Base64.padding]

theorem decode_cursorOf (h : texts.RoundTrip) (key : PageKey) :
    decodeCursor texts (some (cursorOf texts key)) = .ok (some key) := by
  have hfilled : cursorOf texts key ≠ "" := by
    intro hempty
    refine h.written (texts.isoformat (ofLex key).1) (ofLex key).2 ?_
    have hraw := fromUTF8?_toUTF8 (texts.dumps (texts.isoformat (ofLex key).1) (ofLex key).2)
    have hdata := congrArg String.toList hempty
    rw [cursorOf, String.toList_ofList, Base64.rstrip_encode] at hdata
    rw [Base64.data_eq_nil hdata] at hraw
    exact (Option.some.inj hraw).symm
  have hplain (bytes : List UInt8) : urlsafeB64decode (Base64.encode bytes) = some bytes := by
    rw [urlsafeB64decode, if_pos, Base64.decode_encode]
    rw [List.all_eq_true]
    exact fun c hc => decide_eq_true (Base64.encode_plain bytes c hc)
  rw [decodeCursor, if_neg hfilled]
  dsimp only
  rw [cursorOf, padded_cursor, hplain, bind_some, fromUTF8?_toUTF8, bind_some, h.json, bind_some,
    h.iso]
  rfl

/-! Pages. -/

section Pages
variable {α : Type} {key : α → PageKey} {items : List α} {limit : Int}

theorem take_lookAhead {β : Type} (ordered : List α) (n : Nat) (f : α → β) :
    let page := ordered.take (n + 1)
    (page.take n, if n < page.length then (page.take n).getLast?.map f else none) =
      (ordered.take n, if n < ordered.length then (ordered.take n).getLast?.map f else none) := by
  intro page
  have htake : page.take n = ordered.take n := by
    rw [take_take, Nat.min_eq_left (Nat.le_succ n)]
  have hmore : n < page.length ↔ n < ordered.length := by
    rw [length_take]
    omega
  simp only [htake, hmore]

theorem cutPage_eq (boundary : Option PageKey) :
    cutPage texts key limit (items.filter fun a => boundary.all (key a < ·)) =
      let page := Keyset.page key (max 1 limit).toNat items boundary
      (page.1, page.2.map (cursorOf texts)) := by
  have hlimit : (max 1 limit + 1).toNat = (max 1 limit).toNat + 1 := by omega
  have hahead := take_lookAhead (Keyset.below key items boundary) (max 1 limit).toNat fun last => cursorOf texts (key last)
  rw [cutPage, hlimit]
  refine hahead.trans ?_
  rw [Keyset.page]
  split
  · cases ((Keyset.below key items boundary).take (max 1 limit).toNat).getLast? with
    | none => rfl
    | some last => rfl
  · rfl

/-- Every item once, the highest key first, in full pages but for the last. -/
structure Enumerates (key : α → PageKey) (limit : Int) (items : List α) (pages : List (List α)) : Prop where
  exactly : pages.flatten.Perm items
  descending : pages.flatten.Pairwise fun a b => key b < key a
  full : ∀ page ∈ pages.dropLast, page.length = (max 1 limit).toNat

theorem walk_enumerates (h : texts.RoundTrip) (hitems : (items.map key).Nodup) {fuel : Nat} (hfuel : items.length < fuel)
    {served : Option String → Except String (List α × Option String)}
    (hserved : ∀ cursor, served cursor = (decodeCursor texts cursor).map fun boundary =>
      cutPage texts key limit (items.filter fun a => boundary.all (key a < ·))) :
    ∃ pages, Keyset.walk (fun cursor => (served cursor).toOption) fuel none = some pages ∧
      Enumerates key limit items pages := by
  have hencoded : ∀ cursor : Option PageKey, (served (cursor.map (cursorOf texts))).toOption =
      (some (Keyset.page key (max 1 limit).toNat items cursor)).map
        fun page => (page.1, page.2.map (cursorOf texts)) := by
    intro cursor
    have hdecode : decodeCursor texts (cursor.map (cursorOf texts)) = .ok cursor := by
      cases cursor with
      | none => rfl
      | some boundary => exact decode_cursorOf h boundary
    rw [hserved, hdecode]
    exact congrArg some (cutPage_eq cursor)
  have hlimit : 0 < (max 1 limit).toNat := by omega
  have hperm : (Keyset.below key items none).Perm items := by
    refine (Keyset.below_perm none).trans ?_
    have hall : items.filter (fun a => (none : Option PageKey).all (key a < ·)) = items :=
      filter_eq_self.mpr fun _ _ => rfl
    rw [hall]
  have hlength : (Keyset.below key items none).length < fuel := by
    rw [hperm.length_eq]
    exact hfuel
  have hwalk := Keyset.walk_page hitems hlimit _ none hlength
  have hserve : Keyset.walk (fun cursor => (served cursor).toOption) fuel none =
      Keyset.walk (fun boundary => some (Keyset.page key (max 1 limit).toNat items boundary)) fuel none :=
    Keyset.walk_encoded (cursorOf texts) hencoded fuel none
  have hflatten := Keyset.pieces_flatten hlimit _ _ hlength
  refine ⟨_, hserve.trans hwalk, ⟨?_, ?_, ?_⟩⟩
  · rw [hflatten]
    exact hperm
  · rw [hflatten]
    exact Keyset.below_sorted hitems none
  · exact Keyset.pieces_full _ _

end Pages

/-- Ids are all that tells items of one moment apart. -/
theorem nodup_pageKey {α : Type} {key : α → PageKey} {id : α → String} {items : List α}
    (hid : ∀ a b, key a = key b → id a = id b) (h : (items.map id).Nodup) : (items.map key).Nodup := by
  rw [List.Nodup, pairwise_map] at h ⊢
  exact h.imp fun hne heq => hne (hid _ _ heq)

/-- Both listings hand out every matching item exactly once, and a cursor is read as it was written. -/
theorem list_page_exact (texts : CursorTexts) (h : texts.RoundTrip) :
    (∀ (s : ThreadRepository) workspaceId userId limit includeDeleted, ∃ pages,
      Keyset.walk (fun cursor => (s.listPage texts workspaceId userId limit cursor includeDeleted).toOption)
        (s.rows.length + 1) none = some pages ∧
      Enumerates Thread.pageKey limit
        (s.rows.filter (ThreadRepository.listed workspaceId userId includeDeleted)) pages) ∧
    (∀ (s : MessageRepository) threadId limit, ∃ pages,
      Keyset.walk (fun cursor => (s.listPage texts threadId limit cursor).toOption) (s.rows.length + 1) none =
        some pages ∧
      Enumerates Message.pageKey limit (s.rows.filter fun item => item.threadId = threadId) pages) ∧
    ∀ moment itemId, decodeCursor texts (some (cursorOf texts (toLex (moment, itemId)))) =
      .ok (some (toLex (moment, itemId))) := by
  refine ⟨fun s workspaceId userId limit includeDeleted => ?_, fun s threadId limit => ?_,
    fun moment itemId => decode_cursorOf h (toLex (moment, itemId))⟩
  · refine walk_enumerates h ?_ (Nat.lt_succ_of_le (length_filter_le _ _)) fun cursor => ?_
    · exact nodup_pageKey (fun _ _ => congrArg Prod.snd) (s.nodup.sublist (filter_sublist.map Thread.id))
    · simp only [ThreadRepository.listPage, List.filter_filter, Bool.and_comm]
  · refine walk_enumerates h ?_ (Nat.lt_succ_of_le (length_filter_le _ _)) fun cursor => ?_
    · exact nodup_pageKey (fun _ _ => congrArg Prod.snd) (s.nodup.sublist (filter_sublist.map Message.id))
    · simp only [MessageRepository.listPage, List.filter_filter, Bool.and_comm]

/-! A page after a tie. -/

def quoteText : List Char → List Char
  | [] => ['"']
  | c :: text => if c = '"' ∨ c = '\\' then '\\' :: c :: quoteText text else c :: quoteText text

def unquoteText : List Char → Option (List Char × List Char)
  | [] => none
  | '"' :: text => some ([], text)
  | '\\' :: c :: text => (unquoteText text).map fun parts => (c :: parts.1, parts.2)
  | c :: text => (unquoteText text).map fun parts => (c :: parts.1, parts.2)

theorem unquoteText_quoteText (text rest : List Char) : unquoteText (quoteText text ++ rest) = some (text, rest) := by
  induction text with
  | nil => rfl
  | cons c text ih =>
    rw [quoteText]
    split
    · rw [cons_append, cons_append, unquoteText, ih]
      rfl
    · next hc =>
      rw [cons_append, unquoteText, ih]
      · rfl
      · rintro rfl
        exact hc (Or.inl rfl)
      · rintro d more rfl _
        exact hc (Or.inr rfl)

/-- The texts of the first moment, and of ids without control characters. -/
def epochTexts : CursorTexts where
  isoformat moment :=
    if moment = 0 then "1970-01-01T00:00:00+00:00"
    else String.ofList ((if 0 < moment then '+' else '-') :: List.replicate moment.natAbs '0')
  fromisoformat text :=
    if text = "1970-01-01T00:00:00+00:00" then some 0
    else match text.toList with
      | '+' :: zeros => some zeros.length
      | '-' :: zeros => some (-zeros.length)
      | _ => none
  dumps moment itemId :=
    String.ofList ('[' :: '"' :: quoteText moment.toList ++ ',' :: '"' :: quoteText itemId.toList ++ [']'])
  loads text := match text.toList with
    | '[' :: '"' :: text => (unquoteText text).bind fun moment => match moment.2 with
      | ',' :: '"' :: text => (unquoteText text).bind fun itemId =>
        if itemId.2 = [']'] then some (String.ofList moment.1, String.ofList itemId.1) else none
      | _ => none
    | _ => none

theorem epochTexts_roundTrip : epochTexts.RoundTrip where
  iso moment := by
    by_cases hzero : moment = 0
    · subst hzero
      rfl
    have htext : epochTexts.isoformat moment =
        String.ofList ((if 0 < moment then '+' else '-') :: List.replicate moment.natAbs '0') := if_neg hzero
    have hread (sign : Char) (h : sign ≠ '1') (zeros : List Char) :
        epochTexts.fromisoformat (String.ofList (sign :: zeros)) = match sign :: zeros with
          | '+' :: zeros => some zeros.length
          | '-' :: zeros => some (-zeros.length)
          | _ => none := by
      have hother : String.ofList (sign :: zeros) ≠ "1970-01-01T00:00:00+00:00" := by
        intro heq
        have hhead := congrArg (fun text => text.toList.head?) heq
        exact h (by simpa using hhead)
      simp only [epochTexts]
      rw [if_neg hother, String.toList_ofList]
    rw [htext]
    by_cases hpos : 0 < moment
    · rw [if_pos hpos, hread '+' (by decide)]
      have habs : ((List.replicate moment.natAbs '0').length : Int) = moment := by
        rw [length_replicate]
        exact Int.natAbs_of_nonneg hpos.le
      exact congrArg some habs
    · rw [if_neg hpos, hread '-' (by decide)]
      have habs : -((List.replicate moment.natAbs '0').length : Int) = moment := by
        rw [length_replicate, Int.ofNat_natAbs_of_nonpos (not_lt.mp hpos)]
        exact neg_neg moment
      exact congrArg some habs
  json moment itemId := by
    simp only [epochTexts, String.toList_ofList, cons_append, append_assoc, unquoteText_quoteText,
      bind_some, String.ofList_toList, if_true]
  written moment itemId := by
    intro hempty
    have hlist := congrArg String.toList hempty
    simp [epochTexts] at hlist

/-- Two threads of one moment. -/
def tiedThreads : ThreadRepository where
  rows := [{ id := "a", workspaceId := "w", ownerUserId := "u", updatedAt := 0 },
    { id := "b", workspaceId := "w", ownerUserId := "u", updatedAt := 0 }]
  nodup := by decide

theorem list_page_exact_tied : ∃ pages,
    Keyset.walk (fun cursor => (tiedThreads.listPage epochTexts "w" "u" 1 cursor false).toOption) 3 none = some pages ∧
    Enumerates Thread.pageKey 1 tiedThreads.rows pages :=
  (list_page_exact epochTexts epochTexts_roundTrip).1 tiedThreads "w" "u" 1 false

end SelericSwarm
