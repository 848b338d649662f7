import SelericSwarm.EvidenceTruth
import Mathlib.Data.List.DropRight

/-! What `_sanitize_dimensions` makes of one value, of a list of one, of a list, and of what it has made already. -/
namespace SelericSwarm.Agent
open Keyed List

section Sanitizing
variable (env : Environment)

/-- A value of the mapping as the model could have passed it. -/
def DimensionValue.raw : DimensionValue → RawDimension
  | .text value => .text value
  | .list values => .list (values.map some)

/-- A text that is the key's own name. -/
def isSelfReferential (key text : String) : Bool := normalizeDimToken env text = normalizeDimToken env key

def isGroupbyMarker (text : String) : Bool := normalizeDimToken env text ∈ groupbyMarkers

def keptValues (values : List (Option String)) : List String :=
  (values.filterMap fun v => v.map strip).filter fun v => v ≠ "" && !isPlaceholder env v

/-! Stripping and dropping repeats once is enough. -/

theorem strip_strip (text : String) : strip (strip text) = strip text := by
  have hfront : ∀ chars : List Char, ((chars.dropWhile (·.toNat ∈ stripped)).rdropWhile (·.toNat ∈ stripped)).dropWhile
      (·.toNat ∈ stripped) = (chars.dropWhile (·.toNat ∈ stripped)).rdropWhile (·.toNat ∈ stripped) := by
    intro chars
    have hlead := rdropWhile_prefix (p := fun c : Char => decide (c.toNat ∈ stripped))
      (l := chars.dropWhile (·.toNat ∈ stripped))
    refine dropWhile_eq_self_iff.mpr fun hpos => ?_
    rw [hlead.getElem hpos]
    exact dropWhile_get_zero_not (fun c : Char => decide (c.toNat ∈ stripped)) chars (hpos.trans_le hlead.length_le)
  have hstrip (text : String) : (strip text).toList =
      (text.toList.dropWhile (·.toNat ∈ stripped)).rdropWhile (·.toNat ∈ stripped) := String.toList_ofList
  apply String.toList_inj.mp
  rw [hstrip, hstrip, hfront, rdropWhile_idempotent]

theorem nodup_eraseDups (items : List String) : items.eraseDups.Nodup := by
  induction hlength : items.length using Nat.strong_induction_on generalizing items with
  | _ n ih =>
    cases items with
    | nil => exact nodup_nil
    | cons a as =>
      have hle := length_filter_le (fun b => !b == a) as
      rw [length_cons] at hlength
      rw [eraseDups_cons, nodup_cons, mem_eraseDups]
      refine ⟨fun hmem => ?_, ih _ (by omega) _ rfl⟩
      have hne := (mem_filter.mp hmem).2
      simp at hne

theorem eraseDups_of_nodup {items : List String} (h : items.Nodup) : items.eraseDups = items := by
  induction items with
  | nil => rfl
  | cons a as ih =>
    obtain ⟨hnot, hrest⟩ := nodup_cons.mp h
    have hfilter : as.filter (fun b => !b == a) = as := by
      rw [filter_eq_self]
      intro b hb
      simpa using fun heq : b = a => hnot (heq ▸ hb)
    rw [eraseDups_cons, hfilter, ih hrest]

theorem one_lt_eraseDups {items : List String} : 1 < (items.eraseDups).length ↔ ∃ v ∈ items, ∃ w ∈ items, v ≠ w := by
  have hnodup := nodup_eraseDups items
  have hmem : ∀ v, v ∈ items.eraseDups ↔ v ∈ items := fun v => mem_eraseDups
  generalize items.eraseDups = keys at hnodup hmem
  constructor
  · intro hlt
    match keys with
    | [] => cases hlt
    | [v] => exact absurd hlt (Nat.lt_irrefl 1)
    | v :: w :: keys =>
      refine ⟨v, (hmem v).mp mem_cons_self, w, (hmem w).mp (mem_cons_of_mem v mem_cons_self), ?_⟩
      rintro rfl
      exact (nodup_cons.mp hnodup).1 mem_cons_self
  · intro ⟨v, hv, w, hw, hne⟩
    have hv := (hmem v).mpr hv
    have hw := (hmem w).mpr hw
    match keys with
    | [] => cases hv
    | [u] => exact absurd ((mem_singleton.mp hv).trans (mem_singleton.mp hw).symm) hne
    | _ :: _ :: keys =>
      rw [length_cons, length_cons]
      omega

/-! One entry. -/

variable {text key : String} {raw : List (Option String)}

theorem not_placeholder_of_marker (h : isGroupbyMarker env text = true) : isPlaceholder env text = false := by
  have hnone : ∀ token ∈ groupbyMarkers,
      (token = "" || token ∈ placeholders || placeholderOpenings.any (startsWith token)) = false := by
    decide
  exact hnone _ (of_decide_eq_true h)

theorem mem_keptValues : text ∈ keptValues env raw ↔
    (∃ v, some v ∈ raw ∧ strip v = text) ∧ text ≠ "" ∧ isPlaceholder env text = false := by
  simp [keptValues, mem_filter, mem_filterMap]

theorem strip_of_kept (h : text ∈ keptValues env raw) : strip text = text := by
  obtain ⟨⟨v, -, rfl⟩, -⟩ := (mem_keptValues env).mp h
  exact strip_strip v

theorem keptValues_of_kept {values : List String} (h : ∀ v ∈ values, v ∈ keptValues env raw) :
    keptValues env (values.map some) = values := by
  have hstrip : (values.map some).filterMap (fun v => v.map strip) = values := by
    rw [filterMap_map]
    refine (filterMap_congr fun v hv => ?_).trans filterMap_some
    exact congrArg some (strip_of_kept env (h v hv))
  rw [keptValues, hstrip, filter_eq_self]
  intro v hv
  obtain ⟨-, hblank, hplaceholder⟩ := (mem_keptValues env).mp (h v hv)
  simp [hblank, hplaceholder]

/-- A text by its stripped form, which is what is left of it. -/
inductive SanitizedText (key text : String) : Option DimensionValue → Prop
  | blank (blank : text = "") : SanitizedText key text (some (.text ""))
  | marker (given : text ≠ "") (marker : isGroupbyMarker env text = true) : SanitizedText key text (some (.text ""))
  | own (given : text ≠ "") (unmarked : isGroupbyMarker env text = false) (own : isSelfReferential env key text = true) :
      SanitizedText key text (some (.text ""))
  | placeholder (given : text ≠ "") (unmarked : isGroupbyMarker env text = false)
      (foreign : isSelfReferential env key text = false) (placeholder : isPlaceholder env text = true) :
      SanitizedText key text none
  | real (given : text ≠ "") (unmarked : isGroupbyMarker env text = false)
      (foreign : isSelfReferential env key text = false) (real : isPlaceholder env text = false) :
      SanitizedText key text (some (.text text))

theorem sanitizeText_spec (key value : String) : SanitizedText env key (strip value) (sanitizeText env key value) := by
  have hmarked : decide (normalizeDimToken env (strip value) ∈ groupbyMarkers) = isGroupbyMarker env (strip value) := rfl
  have hself : decide (normalizeDimToken env (strip value) = normalizeDimToken env key) =
      isSelfReferential env key (strip value) := rfl
  unfold sanitizeText
  dsimp only
  rw [hmarked, hself]
  generalize strip value = text
  by_cases hblank : text = ""
  · rw [hblank]
    exact .blank rfl
  · simp only [ne_eq, hblank, not_false_eq_true, decide_true, Bool.true_and]
    cases hmarker : isGroupbyMarker env text with
    | true => exact .marker hblank hmarker
    | false =>
      cases hown : isSelfReferential env key text with
      | true => exact .own hblank hmarker hown
      | false =>
        cases hplaceholder : isPlaceholder env text with
        | true => exact .placeholder hblank hmarker hown hplaceholder
        | false => exact .real hblank hmarker hown hplaceholder

theorem sanitizeText_ne_list (key text : String) (values : List String) :
    sanitizeText env key text ≠ some (.list values) := by
  have hspec := sanitizeText_spec env key text
  generalize sanitizeText env key text = result at hspec
  intro h
  cases hspec <;> cases h

theorem sanitizeText_strip (key value : String) : sanitizeText env key (strip value) = sanitizeText env key value := by
  unfold sanitizeText
  rw [strip_strip]

/-- A list by what is kept of it. -/
inductive SanitizedList (key : String) (raw : List (Option String)) : Option DimensionValue → Prop
  | many (many : 1 < (keptValues env raw).length) : SanitizedList key raw (some (.list (keptValues env raw).eraseDups))
  | none (kept : keptValues env raw = []) : SanitizedList key raw (some (.text ""))
  | one {text : String} (kept : keptValues env raw = [text]) (stripped : strip text = text) :
      SanitizedList key raw (sanitizeText env key text)

theorem sanitizeValue_list (key : String) (raw : List (Option String)) : sanitizeValue env key (.list raw) =
    match keptValues env raw with
    | [] => some (.text "")
    | [value] => sanitizeText env key value
    | kept => some (.list kept.eraseDups) := rfl

theorem sanitize_many (key : String) (h : 1 < (keptValues env raw).length) :
    sanitizeValue env key (.list raw) = some (.list (keptValues env raw).eraseDups) := by
  rw [sanitizeValue_list]
  match hkept : keptValues env raw with
  | [] => rw [hkept] at h; cases h
  | [_] => rw [hkept] at h; exact absurd h (Nat.lt_irrefl 1)
  | _ :: _ :: _ => rfl

theorem sanitizeList_spec (key : String) (raw : List (Option String)) :
    SanitizedList env key raw (sanitizeValue env key (.list raw)) := by
  match hkept : keptValues env raw with
  | [] =>
    have hvalue : sanitizeValue env key (.list raw) = some (.text "") := by
      rw [sanitizeValue_list, hkept]
    rw [hvalue]
    exact .none hkept
  | [text] =>
    have hvalue : sanitizeValue env key (.list raw) = sanitizeText env key text := by
      rw [sanitizeValue_list, hkept]
    rw [hvalue]
    exact .one hkept (strip_of_kept env (hkept ▸ mem_singleton_self text))
  | first :: second :: rest =>
    have hmany : 1 < (keptValues env raw).length := by
      rw [hkept, length_cons, length_cons]
      omega
    rw [sanitize_many env key hmany]
    exact .many hmany

/-! Values and lists of one, and lists by their real values. -/

/-- A placeholder that stands alone takes its key along. -/
def Dropped (key text : String) : Prop := text ≠ "" ∧ isPlaceholder env text = true ∧ isSelfReferential env key text = false

theorem sanitize_singleton (key v : String) : sanitizeValue env key (.list [some v]) =
    if strip v = "" ∨ isPlaceholder env (strip v) = true then some (.text "") else sanitizeText env key v := by
  have hmem (text : String) : text ∈ keptValues env [some v] ↔
      strip v = text ∧ text ≠ "" ∧ isPlaceholder env text = false := by
    rw [mem_keptValues]
    simp
  have hlist := sanitizeList_spec env key [some v]
  generalize sanitizeValue env key (.list [some v]) = result at hlist
  cases hlist with
  | many many =>
    have hle : (keptValues env [some v]).length ≤ 1 := length_filter_le _ [strip v]
    omega
  | none kept =>
    rw [if_pos]
    by_contra hkept
    rw [not_or, Bool.not_eq_true] at hkept
    have hin := (hmem (strip v)).mpr ⟨rfl, hkept⟩
    rw [kept] at hin
    cases hin
  | @one text kept _ =>
    obtain ⟨rfl, hblank, hplaceholder⟩ := (hmem text).mp (kept ▸ mem_singleton_self text)
    rw [if_neg, sanitizeText_strip]
    rw [not_or, Bool.not_eq_true]
    exact ⟨hblank, hplaceholder⟩

theorem singleton_iff (key v : String) : sanitizeValue env key (.list [some v]) = sanitizeValue env key (.text v) ↔
    ¬Dropped env key (strip v) := by
  have hspec := sanitizeText_spec env key v
  have htext : sanitizeValue env key (.text v) = sanitizeText env key v := rfl
  rw [sanitize_singleton, htext]
  generalize sanitizeText env key v = result at hspec
  generalize strip v = text at hspec
  unfold Dropped
  cases hspec with
  | blank blank => simp [blank]
  | marker given marker => simp [given, not_placeholder_of_marker env marker]
  | own given unmarked own => simp [own]
  | placeholder given unmarked foreign placeholder => simp [given, foreign, placeholder]
  | real given unmarked foreign real => simp [given, real]

/-- The values of a list that are neither markers nor the key's own name. -/
def realValues (key : String) (raw : List (Option String)) : List String :=
  ((keptValues env raw).filter fun text => !isGroupbyMarker env text && !isSelfReferential env key text).eraseDups

/-- At most one value is kept, or two different ones and neither a marker nor the key's own name. -/
def Unmixed (key : String) (raw : List (Option String)) : Prop :=
  (keptValues env raw).length ≤ 1 ∨
    (∀ v ∈ keptValues env raw, isGroupbyMarker env v = false ∧ isSelfReferential env key v = false) ∧
      ∃ v ∈ keptValues env raw, ∃ w ∈ keptValues env raw, v ≠ w

def Repeats : RawDimension → Prop
  | .list raw => 1 < (keptValues env raw).length ∧ ∀ v ∈ keptValues env raw, ∀ w ∈ keptValues env raw, v = w
  | _ => False

theorem again_of_text {value : DimensionValue} (h : sanitizeText env key text = some value) :
    sanitizeValue env key value.raw = some value := by
  have hspec := sanitizeText_spec env key text
  rw [h] at hspec
  cases hspec with
  | real =>
    rw [← h]
    exact sanitizeText_strip env key text
  | _ => rfl

theorem again_of_list (key : String) (raw : List (Option String)) :
    sanitizeValue env key (.list ((keptValues env raw).eraseDups.map some)) = some (.list (keptValues env raw).eraseDups) ↔
      ∃ v ∈ keptValues env raw, ∃ w ∈ keptValues env raw, v ≠ w := by
  have hkept : keptValues env ((keptValues env raw).eraseDups.map some) = (keptValues env raw).eraseDups :=
    keptValues_of_kept env fun v hv => mem_eraseDups.mp hv
  have hagain := sanitizeList_spec env key ((keptValues env raw).eraseDups.map some)
  rw [← one_lt_eraseDups]
  generalize sanitizeValue env key (.list ((keptValues env raw).eraseDups.map some)) = result at hagain
  cases hagain with
  | many many =>
    rw [hkept] at many ⊢
    rw [eraseDups_of_nodup (nodup_eraseDups _)]
    exact ⟨fun _ => many, fun _ => rfl⟩
  | none kept =>
    rw [hkept] at kept
    rw [kept]
    refine ⟨fun heq => ?_, fun hlt => ?_⟩
    · cases heq
    · cases hlt
  | one kept _ =>
    rw [hkept] at kept
    rw [kept]
    exact ⟨fun heq => absurd heq (sanitizeText_ne_list env _ _ _), fun hlt => absurd hlt (Nat.lt_irrefl 1)⟩

theorem again_iff (key : String) (raw : RawDimension) {value : DimensionValue} (h : sanitizeValue env key raw = some value) :
    sanitizeValue env key value.raw = some value ↔ ¬Repeats env raw := by
  cases raw with
  | null =>
    obtain rfl := Option.some.inj h
    exact ⟨fun _ hrepeats => hrepeats, fun _ => rfl⟩
  | text text => exact ⟨fun _ hrepeats => hrepeats, fun _ => again_of_text env h⟩
  | list raw =>
    by_cases hmany : 1 < (keptValues env raw).length
    · rw [sanitize_many env key hmany] at h
      obtain rfl := Option.some.inj h
      refine (again_of_list env key raw).trans ?_
      simp only [Repeats, hmany, true_and, not_forall, exists_prop, ne_eq]
    · refine ⟨fun _ hrepeats => hmany hrepeats.1, fun _ => ?_⟩
      have hlist := sanitizeList_spec env key raw
      rw [h] at hlist
      generalize hvalue : some value = result at hlist
      cases hlist with
      | many many => exact absurd many hmany
      | none kept =>
        obtain rfl := Option.some.inj hvalue
        exact hvalue
      | one kept stripped => exact (again_of_text env hvalue.symm).trans hvalue

/-- A list is treated as a marker in it alone, or else as its real values. -/
def ByRealValues (key : String) (raw : List (Option String)) : Prop :=
  (∀ v, some v ∈ raw → isGroupbyMarker env (strip v) = true → strip v ≠ "" →
      sanitizeValue env key (.list raw) = sanitizeValue env key (.text v)) ∧
    ((∀ v, some v ∈ raw → isGroupbyMarker env (strip v) = true → strip v = "") →
      sanitizeValue env key (.list raw) = sanitizeValue env key (.list ((realValues env key raw).map some)))

theorem sanitize_marker {v : String} (h : isGroupbyMarker env (strip v) = true) :
    sanitizeValue env key (.text v) = some (.text "") := by
  have hspec := sanitizeText_spec env key v
  change sanitizeText env key v = _
  generalize sanitizeText env key v = result at hspec
  cases hspec with
  | blank | marker | own => rfl
  | placeholder _ unmarked | real _ unmarked =>
    rw [h] at unmarked
    cases unmarked

theorem mem_kept_of_marker {v : String} (hv : some v ∈ raw) (h : isGroupbyMarker env (strip v) = true)
    (hne : strip v ≠ "") : strip v ∈ keptValues env raw :=
  (mem_keptValues env).mpr ⟨⟨v, hv, rfl⟩, hne, not_placeholder_of_marker env h⟩

theorem mem_realValues {v : String} : v ∈ realValues env key raw ↔
    v ∈ keptValues env raw ∧ isGroupbyMarker env v = false ∧ isSelfReferential env key v = false := by
  simp [realValues, mem_eraseDups, mem_filter]

theorem kept_realValues (key : String) (raw : List (Option String)) :
    keptValues env ((realValues env key raw).map some) = realValues env key raw :=
  keptValues_of_kept env fun _ hv => ((mem_realValues env).mp hv).1

theorem sanitize_realValues (h : 1 < (realValues env key raw).length) :
    sanitizeValue env key (.list ((realValues env key raw).map some)) = some (.list (realValues env key raw)) := by
  rw [sanitize_many env key (by rwa [kept_realValues]), kept_realValues, eraseDups_of_nodup]
  exact nodup_eraseDups _

theorem byRealValues_of_unmixed (h : Unmixed env key raw) : ByRealValues env key raw := by
  have hlist := sanitizeList_spec env key raw
  generalize hvalue : sanitizeValue env key (.list raw) = value at hlist
  unfold ByRealValues
  rw [hvalue]
  cases hlist with
  | many many =>
    obtain hle | ⟨hunmixed, hdistinct⟩ := h
    · omega
    · refine ⟨fun v hv hmarker hne => ?_, fun _ => ?_⟩
      · have hkept := (hunmixed _ (mem_kept_of_marker env hv hmarker hne)).1
        rw [hmarker] at hkept
        cases hkept
      · have hsame : realValues env key raw = (keptValues env raw).eraseDups := by
          rw [realValues, filter_eq_self.mpr]
          intro v hv
          rw [(hunmixed v hv).1, (hunmixed v hv).2]
          rfl
        rw [sanitize_realValues, hsame]
        rw [hsame]
        exact one_lt_eraseDups.mpr hdistinct
  | none kept =>
    refine ⟨fun v hv hmarker hne => ?_, fun _ => ?_⟩
    · have hin := mem_kept_of_marker env hv hmarker hne
      rw [kept] at hin
      cases hin
    · have hnil : realValues env key raw = [] := by
        rw [realValues, kept]
        rfl
      rw [hnil]
      rfl
  | @one text kept stripped =>
    obtain ⟨⟨v₀, hv₀, hstrip₀⟩, hblank, hplaceholder⟩ := (mem_keptValues env).mp (kept ▸ mem_singleton_self text)
    refine ⟨fun v hv hmarker hne => ?_, fun hunmarked => ?_⟩
    · have hin := mem_kept_of_marker env hv hmarker hne
      rw [kept, mem_singleton] at hin
      rw [← hin]
      exact sanitizeText_strip env key v
    · have hmarker : isGroupbyMarker env text = false := by
        by_contra hmarked
        rw [Bool.not_eq_false] at hmarked
        exact hblank (hstrip₀ ▸ hunmarked v₀ hv₀ (by rw [hstrip₀]; exact hmarked))
      cases hown : isSelfReferential env key text with
      | true =>
        have hnil : realValues env key raw = [] := by
          rw [realValues, kept, filter_cons_of_neg (by simp [hown])]
          rfl
        have hspec := sanitizeText_spec env key text
        rw [stripped] at hspec
        rw [hnil]
        generalize sanitizeText env key text = result at hspec
        cases hspec with
        | blank | marker | own => rfl
        | placeholder _ _ foreign | real _ _ foreign =>
          rw [hown] at foreign
          cases foreign
      | false =>
        have hone : realValues env key raw = [text] := by
          rw [realValues, kept, filter_cons_of_pos (by simp [hmarker, hown])]
          rfl
        rw [hone, map_cons, map_nil, sanitize_singleton, stripped, if_neg]
        rw [not_or, Bool.not_eq_true]
        exact ⟨hblank, hplaceholder⟩

theorem unmixed_of_byRealValues (h : ByRealValues env key raw) : Unmixed env key raw := by
  obtain ⟨hmarked, hunmarked⟩ := h
  by_cases hmany : 1 < (keptValues env raw).length
  · rw [sanitize_many env key hmany] at hmarked hunmarked
    have hnone : ∀ v, some v ∈ raw → isGroupbyMarker env (strip v) = true → strip v = "" := by
      intro v hv hmarker
      by_contra hne
      have hsame := hmarked v hv hmarker hne
      rw [sanitize_marker env hmarker] at hsame
      cases hsame
    have hreal := hunmarked hnone
    have hlist := sanitizeList_spec env key ((realValues env key raw).map some)
    have hlt : 1 < (realValues env key raw).length := by
      rw [← hreal] at hlist
      generalize hresult : some (DimensionValue.list (keptValues env raw).eraseDups) = result at hlist
      cases hlist with
      | many many =>
        rw [kept_realValues] at many
        exact many
      | none => cases hresult
      | one => exact absurd hresult.symm (sanitizeText_ne_list env _ _ _)
    rw [sanitize_realValues env hlt] at hreal
    have hsame : (keptValues env raw).eraseDups = realValues env key raw := DimensionValue.list.inj (Option.some.inj hreal)
    refine .inr ⟨fun v hv => ?_, ?_⟩
    · have hin : v ∈ realValues env key raw := hsame ▸ mem_eraseDups.mpr hv
      exact ((mem_realValues env).mp hin).2
    · rw [← one_lt_eraseDups, hsame]
      exact hlt
  · exact .inl (Nat.le_of_not_lt hmany)

/-! Whole mappings. -/

theorem rows_sanitizeDimensions (d : Dict String RawDimension) : (sanitizeDimensions env (some d)).rows =
    d.rows.filterMap fun entry => (sanitizeValue env entry.1 entry.2).map fun value => (entry.1, value) := by
  have hfill : ∀ (rows : List (String × RawDimension)) (filled : Dict String DimensionValue),
      (filled.rows.map Prod.fst ++ rows.map Prod.fst).Nodup →
      (rows.foldl (fun cleaned entry =>
        (sanitizeValue env entry.1 entry.2).elim cleaned (cleaned.set entry.1)) filled).rows = filled.rows ++
          rows.filterMap fun entry => (sanitizeValue env entry.1 entry.2).map fun value => (entry.1, value) := by
    intro rows
    induction rows with
    | nil =>
      intro filled _
      exact (append_nil _).symm
    | cons entry rows ih =>
      intro filled hnodup
      rw [foldl_cons, filterMap_cons]
      rw [map_cons] at hnodup
      cases hvalue : sanitizeValue env entry.1 entry.2 with
      | none => exact ih filled (hnodup.sublist (Sublist.append_left (sublist_cons_self _ _) _))
      | some value =>
        have hnew : Table.get? filled entry.1 = none := by
          rw [Table.get?_eq_none_iff]
          intro hmem
          exact (nodup_append.mp hnodup).2.2 _ hmem entry.1 mem_cons_self rfl
        have hrows : (filled.set entry.1 value).rows = filled.rows ++ [(entry.1, value)] := Table.put_rows_of_none hnew
        rw [Option.elim_some, ih, hrows, append_assoc, singleton_append]
        · rfl
        · rw [hrows, map_append, append_assoc]
          exact hnodup
  rw [sanitizeDimensions]
  refine (congrArg (fun step => (d.rows.foldl step (Dict.empty : Dict String DimensionValue)).rows) ?_).trans (hfill d.rows .empty d.nodup)
  funext cleaned entry
  cases sanitizeValue env entry.1 entry.2 <;> rfl

def single (key : String) (value : RawDimension) : Dict String RawDimension := Dict.empty.set key value

theorem sanitize_single_eq_iff (key : String) (value value' : RawDimension) :
    sanitizeDimensions env (some (single key value)) = sanitizeDimensions env (some (single key value')) ↔
      sanitizeValue env key value = sanitizeValue env key value' := by
  have hrows (value : RawDimension) : (sanitizeDimensions env (some (single key value))).rows =
      ((sanitizeValue env key value).map fun value => (key, value)).toList := by
    rw [rows_sanitizeDimensions]
    change List.filterMap _ [(key, value)] = _
    rw [filterMap_cons, filterMap_nil]
    cases sanitizeValue env key value with
    | none => rfl
    | some value => rfl
  constructor
  · intro h
    have hsame := congrArg Table.rows h
    rw [hrows, hrows] at hsame
    generalize sanitizeValue env key value = x at hsame
    generalize sanitizeValue env key value' = y at hsame
    cases x <;> cases y <;> simp_all
  · intro h
    apply Table.ext
    rw [hrows, hrows, h]

theorem filterMap_eq_self_iff {α : Type} {f : α → Option α} {l : List α} :
    l.filterMap f = l ↔ ∀ a ∈ l, f a = some a := by
  induction l with
  | nil => simp
  | cons a l ih =>
    rw [filterMap_cons, forall_mem_cons]
    cases hf : f a with
    | none =>
      refine ⟨fun h => ?_, fun h => nomatch h.1⟩
      have hle := length_filterMap_le f l
      have hlength : (l.filterMap f).length = (a :: l).length := congrArg List.length h
      rw [length_cons] at hlength
      omega
    | some b =>
      dsimp only
      rw [List.cons.injEq, Option.some.injEq, ih]

/-- What comes out, as it could have been passed. -/
def rawOf (d : Dict String DimensionValue) : Dict String RawDimension :=
  ⟨d.rows.map fun entry => (entry.1, entry.2.raw), by simpa [List.map_map, Function.comp_def] using d.nodup⟩

/-- A list of a mapping is treated as a marker in it alone, or else as its real values. -/
def ListByRealValues (key : String) (raw : List (Option String)) : Prop :=
  (∀ v, some v ∈ raw → isGroupbyMarker env (strip v) = true → strip v ≠ "" →
      sanitizeDimensions env (some (single key (.list raw))) = sanitizeDimensions env (some (single key (.text v)))) ∧
    ((∀ v, some v ∈ raw → isGroupbyMarker env (strip v) = true → strip v = "") →
      sanitizeDimensions env (some (single key (.list raw))) =
        sanitizeDimensions env (some (single key (.list ((realValues env key raw).map some)))))

/-- When one value is treated as a list of one, when a list is treated as its real values, and when a second pass
changes nothing. -/
theorem sanitizeDimensions_iff :
    (∀ key v, sanitizeDimensions env (some (single key (.list [some v]))) =
      sanitizeDimensions env (some (single key (.text v))) ↔ ¬Dropped env key (strip v)) ∧
    (∀ key raw, ListByRealValues env key raw ↔ Unmixed env key raw) ∧
    ∀ d, sanitizeDimensions env (some (rawOf (sanitizeDimensions env (some d)))) = sanitizeDimensions env (some d) ↔
      ∀ entry ∈ d.rows, ¬Repeats env entry.2 := by
  refine ⟨fun key v => ?_, fun key raw => ?_, fun d => ?_⟩
  · rw [sanitize_single_eq_iff, singleton_iff]
  · unfold ListByRealValues
    simp only [sanitize_single_eq_iff]
    exact ⟨unmixed_of_byRealValues env, byRealValues_of_unmixed env⟩
  · have hrows : sanitizeDimensions env (some (rawOf (sanitizeDimensions env (some d)))) = sanitizeDimensions env (some d) ↔
        ∀ entry ∈ (sanitizeDimensions env (some d)).rows, sanitizeValue env entry.1 entry.2.raw = some entry.2 := by
      rw [Table.ext_iff, rows_sanitizeDimensions env (rawOf _), rawOf, filterMap_map, filterMap_eq_self_iff]
      refine forall_congr' fun entry => imp_congr_right fun _ => ?_
      dsimp only [Function.comp_apply]
      cases sanitizeValue env entry.1 entry.2.raw with
      | none => simp
      | some value => simp [Prod.ext_iff]
    rw [hrows, rows_sanitizeDimensions]
    constructor
    · intro h entry hentry hrepeats
      obtain ⟨key, _ | _ | raw⟩ := entry
      · exact hrepeats
      · exact hrepeats
      · have hvalue := sanitize_many env key hrepeats.1
        refine (again_iff env key (.list raw) hvalue).mp (h (key, _) ?_) hrepeats
        exact mem_filterMap.mpr ⟨(key, .list raw), hentry, Option.map_eq_some_iff.mpr ⟨_, hvalue, rfl⟩⟩
    · intro h entry hentry
      obtain ⟨⟨key, raw⟩, hraw, hmapped⟩ := mem_filterMap.mp hentry
      obtain ⟨value, hvalue, rfl⟩ := Option.map_eq_some_iff.mp hmapped
      exact (again_iff env key raw hvalue).mpr (h (key, raw) hraw)

end Sanitizing

/-- A placeholder alone and in a list, a marker among values, and a value given twice. -/
theorem sanitizeDimensions_differs :
    sanitizeDimensions oneBrand (some (single "utm_source" (.list [some "unknown"]))) ≠
        sanitizeDimensions oneBrand (some (single "utm_source" (.text "unknown"))) ∧
      sanitizeDimensions oneBrand (some (single "utm_source" (.list [some "*", some "google"]))) ≠
        sanitizeDimensions oneBrand (some (single "utm_source" (.text "*"))) ∧
      sanitizeDimensions oneBrand
          (some (rawOf (sanitizeDimensions oneBrand (some (single "utm_source" (.list [some "google", some "google"])))))) ≠
        sanitizeDimensions oneBrand (some (single "utm_source" (.list [some "google", some "google"]))) := by
  have hrows {d e : Dict String DimensionValue} (h : d.rows ≠ e.rows) : d ≠ e := fun heq => h (congrArg Table.rows heq)
  refine ⟨hrows ?_, hrows ?_, hrows ?_⟩
  · decide +kernel
  · decide +kernel
  · decide +kernel

end SelericSwarm.Agent
