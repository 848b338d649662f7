import SelericSwarm.AnswerRedaction

/-! The redaction of logs and traces, which looks at keys of its own and leaves the rest to that of payloads. -/
namespace SelericSwarm.Redaction
open Option
variable {κ α : Type} (r : Redaction κ)

/-! `observability/tracing.py`. -/

def sensitiveKeyFragments : List String :=
  ["api_key", "apikey", "authorization", "auth_token", "password", "secret", "token", "credential"]

/-- `_is_sensitive_key`: `key.lower()` raises where the key is no text. -/
def traceSensitive : PayloadKey κ → Option Bool
  | .str s => some (sensitiveKeyFragments.any fun fragment => fragment.toList <:+: (r.lower s).toList)
  | .other _ => none

mutual

/-- `redact_value`; nothing where it raises. -/
def redactValue (key : PayloadKey κ) (value : PayloadValue κ α) : Option (PayloadValue κ α) :=
  match r.traceSensitive key with
  | none => none
  | some true => some (.text redacted)
  | some false =>
    match value with
    | .mapping entries => (redactMapping entries).map .mapping
    | .list items => (redactEach key items).map .list
    | .text s => some (r.redactData key (.text s))
    | .leaf a => some (r.redactData key (.leaf a))
    | .tuple items => some (r.redactData key (.tuple items))

def redactEach (key : PayloadKey κ) : List (PayloadValue κ α) → Option (List (PayloadValue κ α))
  | [] => some []
  | item :: items => (redactValue key item).bind fun first => (redactEach key items).map (first :: ·)

def redactMapping : List (PayloadKey κ × PayloadValue κ α) → Option (List (PayloadKey κ × PayloadValue κ α))
  | [] => some []
  | (key, item) :: entries =>
    (redactValue key item).bind fun first => (redactMapping entries).map ((key, first) :: ·)

end

mutual

/-- The dictionaries in dictionaries and lists, but for those under sensitive keys, are keyed by texts. -/
def Named : PayloadValue κ α → Prop
  | .mapping entries => NamedEntries entries
  | .list items => NamedItems items
  | .text _ | .leaf _ | .tuple _ => True

def NamedItems : List (PayloadValue κ α) → Prop
  | [] => True
  | item :: items => Named item ∧ NamedItems items

def NamedEntries : List (PayloadKey κ × PayloadValue κ α) → Prop
  | [] => True
  | (key, item) :: entries =>
    (∃ s, key = .str s) ∧ (r.isSensitiveKey key = true ∨ Named item) ∧ NamedEntries entries

end

theorem any_fragments {p : String → Bool} (h : p "auth_token" = true → p "token" = true) :
    sensitiveKeyFragments.any p = sensitiveKeys.any p := by
  rw [Bool.eq_iff_iff]
  simp only [sensitiveKeyFragments, sensitiveKeys, List.any_cons, List.any_nil, Bool.or_false, Bool.or_eq_true]
  tauto

theorem traceSensitive_str (s : String) : r.traceSensitive (.str s) = some (r.isSensitiveKey (.str s)) := by
  refine congrArg some (any_fragments fun h => decide_eq_true ?_)
  exact List.IsInfix.trans ⟨"auth_".toList, [], rfl⟩ (of_decide_eq_true h)

theorem redactData_of_plain {key key' : PayloadKey κ} (h : r.isSensitiveKey key = false)
    (h' : r.isSensitiveKey key' = false) (v : PayloadValue κ α) : r.redactData key v = r.redactData key' v := by
  unfold redactData
  rw [h, h']

/-! Where nothing raises, it is the redaction of payloads. -/

mutual

theorem redactValue_eq_some_iff (key : PayloadKey κ) (v w : PayloadValue κ α) : r.redactValue key v = some w ↔
    (∃ s, key = .str s) ∧ (r.isSensitiveKey key = true ∨ r.Named v) ∧ w = r.redactData key v := by
  cases key with
  | other k =>
    unfold redactValue
    exact iff_of_false (fun h => by cases h) (fun ⟨⟨s, hs⟩, _⟩ => by cases hs)
  | str s =>
    have hstr : ∃ t, PayloadKey.str (κ := κ) s = .str t := ⟨s, rfl⟩
    unfold redactValue redactData
    rw [traceSensitive_str]
    cases hkey : r.isSensitiveKey (.str s) with
    | true => exact ⟨fun h => ⟨hstr, .inl rfl, (Option.some.inj h).symm⟩, fun h => congrArg some h.2.2.symm⟩
    | false =>
      cases v with
      | text | leaf | tuple =>
        exact ⟨fun h => ⟨hstr, .inr trivial, (Option.some.inj h).symm⟩, fun h => congrArg some h.2.2.symm⟩
      | list items =>
        constructor
        · intro h
          obtain ⟨results, hresults, rfl⟩ := map_eq_some_iff.mp h
          obtain ⟨hnamed, rfl⟩ := (redactEach_eq_some_iff hkey hstr items results).mp hresults
          exact ⟨hstr, .inr hnamed, rfl⟩
        · intro ⟨_, hnamed, hw⟩
          have heach := (redactEach_eq_some_iff hkey hstr items _).mpr ⟨hnamed.resolve_left Bool.false_ne_true, rfl⟩
          exact map_eq_some_iff.mpr ⟨_, heach, hw.symm⟩
      | mapping entries =>
        constructor
        · intro h
          obtain ⟨results, hresults, rfl⟩ := map_eq_some_iff.mp h
          obtain ⟨hnamed, rfl⟩ := (redactMapping_eq_some_iff entries results).mp hresults
          exact ⟨hstr, .inr hnamed, rfl⟩
        · intro ⟨_, hnamed, hw⟩
          have hmapping := (redactMapping_eq_some_iff entries _).mpr ⟨hnamed.resolve_left Bool.false_ne_true, rfl⟩
          exact map_eq_some_iff.mpr ⟨_, hmapping, hw.symm⟩

theorem redactEach_eq_some_iff {key : PayloadKey κ} (hkey : r.isSensitiveKey key = false) (hstr : ∃ s, key = .str s)
    (items results : List (PayloadValue κ α)) :
    r.redactEach key items = some results ↔ r.NamedItems items ∧ results = r.redactItems items := by
  cases items with
  | nil => exact ⟨fun h => ⟨trivial, (Option.some.inj h).symm⟩, fun h => congrArg some h.2.symm⟩
  | cons item items =>
    have hplain := r.redactData_of_plain hkey r.isSensitiveKey_empty item
    rw [redactEach, redactItems, NamedItems, ← hplain]
    constructor
    · intro h
      obtain ⟨first, hfirst, h⟩ := bind_eq_some_iff.mp h
      obtain ⟨rest, hrest, rfl⟩ := map_eq_some_iff.mp h
      obtain ⟨-, hnamed, rfl⟩ := (redactValue_eq_some_iff key item first).mp hfirst
      obtain ⟨hrestNamed, rfl⟩ := (redactEach_eq_some_iff hkey hstr items rest).mp hrest
      exact ⟨⟨hnamed.resolve_left (by simp [hkey]), hrestNamed⟩, rfl⟩
    · intro ⟨⟨hnamed, hrestNamed⟩, hresults⟩
      rw [(redactValue_eq_some_iff key item _).mpr ⟨hstr, .inr hnamed, rfl⟩, bind_some,
        (redactEach_eq_some_iff hkey hstr items _).mpr ⟨hrestNamed, rfl⟩, map_some, hresults]

theorem redactMapping_eq_some_iff (entries results : List (PayloadKey κ × PayloadValue κ α)) :
    r.redactMapping entries = some results ↔ r.NamedEntries entries ∧ results = r.redactEntries entries := by
  cases entries with
  | nil => exact ⟨fun h => ⟨trivial, (Option.some.inj h).symm⟩, fun h => congrArg some h.2.symm⟩
  | cons entry entries =>
    obtain ⟨key, item⟩ := entry
    rw [redactMapping, redactEntries, NamedEntries]
    constructor
    · intro h
      obtain ⟨first, hfirst, h⟩ := bind_eq_some_iff.mp h
      obtain ⟨rest, hrest, rfl⟩ := map_eq_some_iff.mp h
      obtain ⟨hstr, hnamed, rfl⟩ := (redactValue_eq_some_iff key item first).mp hfirst
      obtain ⟨hrestNamed, rfl⟩ := (redactMapping_eq_some_iff entries rest).mp hrest
      exact ⟨⟨hstr, hnamed, hrestNamed⟩, rfl⟩
    · intro ⟨⟨hstr, hnamed, hrestNamed⟩, hresults⟩
      rw [(redactValue_eq_some_iff key item _).mpr ⟨hstr, hnamed, rfl⟩, bind_some,
        (redactMapping_eq_some_iff entries _).mpr ⟨hrestNamed, rfl⟩, map_some, hresults]

end

/-! Values of one shape have the same keys. -/

section Shape
variable {texts : String → String → Prop} {hidden : PayloadValue κ α → PayloadValue κ α → Prop}

mutual

theorem named_of_compared (v w : PayloadValue κ α) (h : r.Compared texts hidden v w) (hv : r.Named v) : r.Named w := by
  cases v with
  | text | leaf | tuple => cases w <;> first | exact trivial | exact absurd h (by simp [Compared])
  | list xs =>
    cases w with
    | list ys => exact namedItems_of_compared xs ys h hv
    | text | leaf | tuple | mapping => exact absurd h (by simp [Compared])
  | mapping es =>
    cases w with
    | mapping fs => exact namedEntries_of_compared es fs h hv
    | text | leaf | tuple | list => exact absurd h (by simp [Compared])

theorem namedItems_of_compared (xs ys : List (PayloadValue κ α)) (h : r.ComparedItems texts hidden xs ys)
    (hxs : r.NamedItems xs) : r.NamedItems ys := by
  cases xs with
  | nil => cases ys with
    | nil => exact trivial
    | cons => exact absurd h (by simp [ComparedItems])
  | cons x xs => cases ys with
    | nil => exact trivial
    | cons y ys => exact ⟨named_of_compared x y h.1 hxs.1, namedItems_of_compared xs ys h.2 hxs.2⟩

theorem namedEntries_of_compared (es fs : List (PayloadKey κ × PayloadValue κ α))
    (h : r.ComparedEntries texts hidden es fs) (hes : r.NamedEntries es) : r.NamedEntries fs := by
  cases es with
  | nil => cases fs with
    | nil => exact trivial
    | cons => exact absurd h (by simp [ComparedEntries])
  | cons e es => cases fs with
    | nil => exact trivial
    | cons f fs =>
      obtain ⟨k, v⟩ := e
      obtain ⟨l, w⟩ := f
      obtain ⟨rfl, hvalue, hrest⟩ : k = l ∧ (if r.isSensitiveKey k then hidden v w else r.Compared texts hidden v w) ∧
        r.ComparedEntries texts hidden es fs := h
      refine ⟨hes.1, ?_, namedEntries_of_compared es fs hrest hes.2.2⟩
      by_cases hk : r.isSensitiveKey k = true
      · exact .inl hk
      · rw [if_neg hk] at hvalue
        exact .inr (named_of_compared v w hvalue (hes.2.1.resolve_left hk))

end

end Shape

/-! Redacted twice. -/

mutual

theorem redactData_redactData_iff (key : PayloadKey κ) (v : PayloadValue κ α) :
    r.redactData key (r.redactData key v) = r.redactData key v ↔
      ∀ t ∈ r.textsOf key v, r.redactText (r.redactText t) = r.redactText t := by
  cases hkey : r.isSensitiveKey key with
  | true =>
    rw [r.redactData_of_sensitive hkey, r.redactData_of_sensitive hkey, textsOf.eq_def, if_pos hkey]
    simp
  | false =>
    have hcases (v : PayloadValue κ α) : r.redactData key v = match v with
        | .text s => .text (r.redactText s)
        | .leaf a => .leaf a
        | .list items => .list (r.redactItems items)
        | .tuple items => .tuple (r.redactItems items)
        | .mapping entries => .mapping (r.redactEntries entries) := by
      rw [redactData.eq_def, hkey]
      rfl
    rw [textsOf.eq_def, hkey]
    cases v with
    | text s => simp [hcases]
    | leaf a => simp [hcases]
    | list items => simpa [hcases] using redactItems_redactItems_iff items
    | tuple items => simpa [hcases] using redactItems_redactItems_iff items
    | mapping entries => simpa [hcases] using redactEntries_redactEntries_iff entries

theorem redactItems_redactItems_iff (items : List (PayloadValue κ α)) :
    r.redactItems (r.redactItems items) = r.redactItems items ↔
      ∀ t ∈ r.textsOfItems items, r.redactText (r.redactText t) = r.redactText t := by
  cases items with
  | nil => simp [redactItems, textsOfItems]
  | cons item items =>
    rw [redactItems, redactItems, textsOfItems, List.cons.injEq, List.forall_mem_append,
      redactData_redactData_iff (.str "") item, redactItems_redactItems_iff items]

theorem redactEntries_redactEntries_iff (entries : List (PayloadKey κ × PayloadValue κ α)) :
    r.redactEntries (r.redactEntries entries) = r.redactEntries entries ↔
      ∀ t ∈ r.textsOfEntries entries, r.redactText (r.redactText t) = r.redactText t := by
  cases entries with
  | nil => simp [redactEntries, textsOfEntries]
  | cons entry entries =>
    obtain ⟨key, item⟩ := entry
    rw [redactEntries, redactEntries, textsOfEntries, List.cons.injEq, Prod.mk.injEq, List.forall_mem_append,
      redactData_redactData_iff key item, redactEntries_redactEntries_iff entries]
    simp

end

end SelericSwarm.Redaction
