import SelericSwarm.AnswerRedaction
import SelericSwarm.NumericEchoes

/-! What an audit without findings says of the numerals of an answer, and which answers it lets pass. -/
namespace SelericSwarm.NumericAudit
open Backtracking List

section Laws
variable {κ : Type} (py : AuditText κ)

/-- Where nothing is flagged every numeral outside dates and ids is allowed. -/
def NoBlindSpot (text : List Char) : Prop := ∀ evidence extra query, unauditedNumbers py text evidence extra query = [] →
  ∀ m ∈ numerals py (cleaned py text), normalize m ∈ allowedNumbers py evidence extra query

/-- Every numeral is, up to its commas, a number that is found. -/
def Seen (text : List Char) : Prop := ∀ m ∈ numerals py (cleaned py text), ∃ n ∈ found py text, normalize n = normalize m

/-- What a faithful answer is made of. -/
inductive Echoed (evidence : List (Row κ)) (query : List Char) : List Char → Prop
  | word (text : List Char) (h : ∀ c ∈ text, py.digit c = false) : Echoed evidence query text
  | asked (m : List Char) (h : m ∈ numerals py query) : Echoed evidence query m
  | printed (row : Row κ) (h : row ∈ evidence) (v : κ) (hv : row.value = some v) : Echoed evidence query (py.str v).toList
  | grouped (row : Row κ) (h : row ∈ evidence) (v : κ) (hv : row.value = some v) (s : String) (hs : py.grouped v = some s) :
    Echoed evidence query s.toList
  | dated (row : Row κ) (h : row ∈ evidence) (day : String) (hday : row.start = some day ∨ row.stop = some day) :
    Echoed evidence query day.toList

/-- An answer of such pieces is never flagged. -/
def NoFalseAlarm (evidence : List (Row κ)) (extra : List (Option κ)) (query : List Char) : Prop :=
  ∀ pieces, (∀ piece ∈ pieces, Echoed py evidence query piece) → unauditedNumbers py (joined pieces) evidence extra query = []

/-- The numbers that are found in a text are allowed. -/
def Passes (evidence : List (Row κ)) (extra : List (Option κ)) (query text : List Char) : Prop :=
  ∀ n ∈ found py text, normalize n ∈ allowedNumbers py evidence extra query

structure EchoesAllowed (evidence : List (Row κ)) (extra : List (Option κ)) (query : List Char) : Prop where
  asked : ∀ m ∈ numerals py query, normalize m ∈ allowedNumbers py evidence extra query
  printed : ∀ row ∈ evidence, ∀ v ∈ row.value, Passes py evidence extra query (py.str v).toList
  grouped : ∀ row ∈ evidence, ∀ v ∈ row.value, ∀ s ∈ py.grouped v, Passes py evidence extra query s.toList
  dated : ∀ row ∈ evidence, ∀ day, row.start = some day ∨ row.stop = some day → Passes py evidence extra query day.toList

/-- A numeral, or no number at all. -/
def PlainText (text : List Char) : Prop := IsNumeral py text ∨ ∀ c ∈ text, py.digit c = false

/-- Numbers without an exponent, dates of this century, and a query whose numerals touch no letter. -/
structure Plain (evidence : List (Row κ)) (query : List Char) : Prop where
  asked : Apart py query
  printed : ∀ row ∈ evidence, ∀ v ∈ row.value, PlainText py (py.str v).toList
  grouped : ∀ row ∈ evidence, ∀ v ∈ row.value, ∀ s ∈ py.grouped v, PlainText py s.toList
  dated : ∀ row ∈ evidence, ∀ day, row.start = some day ∨ row.stop = some day → IsoDay py day.toList

/-- More text keeps what is found in a query, up to commas. -/
def Kept (query query' : List Char) : Prop := ∀ n ∈ numbers py query, ∃ n' ∈ numbers py query', normalize n' = normalize n

end Laws

section Audit
variable {κ : Type} {py : AuditText κ}

theorem digit_of_normalize {m : List Char} (h : IsNumeral py m) : ∃ d ∈ normalize m, py.digit d = true := by
  obtain ⟨sg, d, ds, frac, rfl, -, hd, -⟩ := h
  refine ⟨d, mem_filter.mpr ⟨by simp, ?_⟩, hd⟩
  have hcomma : d ≠ ',' := by
    rintro rfl
    rw [digit_eq_false (by decide) (by decide)] at hd
    cases hd
  have hplus : d ≠ '+' := by
    rintro rfl
    rw [digit_eq_false (by decide) (by decide)] at hd
    cases hd
  simp [hcomma, hplus]

theorem normalize_ne_nil {m : List Char} (h : IsNumeral py m) : normalize m ≠ [] := by
  obtain ⟨d, hd, -⟩ := digit_of_normalize h
  exact ne_nil_of_mem hd

theorem normalize_normalize (m : List Char) : normalize (normalize m) = normalize m := by
  rw [normalize, normalize, List.filter_filter]
  simp only [Bool.and_self]

/-- A number is never taken for a sign or a point. -/
theorem normalize_not_mem {m : List Char} (h : IsNumeral py m) : normalize m ∉ ["".toList, "-".toList, ".".toList] := by
  obtain ⟨d, hd, hdigit⟩ := digit_of_normalize h
  intro hmem
  have hcases : normalize m = [] ∨ normalize m = ['-'] ∨ normalize m = ['.'] := by simpa using hmem
  obtain heq | heq | heq := hcases
  · exact normalize_ne_nil h heq
  · rw [heq, mem_singleton] at hd
    rw [hd, digit_eq_false (by decide) (by decide)] at hdigit
    cases hdigit
  · rw [heq, mem_singleton] at hd
    rw [hd, digit_eq_false (by decide) (by decide)] at hdigit
    cases hdigit

variable {evidence : List (Row κ)} {extra : List (Option κ)} {query text : List Char}
variable {token : List Char}

theorem mem_unauditedNumbers : token ∈ unauditedNumbers py text evidence extra query ↔
    ∃ n ∈ found py text, normalize n = token ∧ token ∉ allowedNumbers py evidence extra query := by
  rw [unauditedNumbers, mem_filter, extractNumbers, List.mem_map]
  constructor
  · intro ⟨⟨n, hn, htoken⟩, hflagged⟩
    exact ⟨n, hn, htoken, by simpa using (Bool.and_eq_true_iff.mp hflagged).2⟩
  · intro ⟨n, hn, htoken, hflagged⟩
    refine ⟨⟨n, hn, htoken⟩, Bool.and_eq_true_iff.mpr ⟨decide_eq_true ?_, decide_eq_true hflagged⟩⟩
    rw [← htoken]
    exact normalize_not_mem (isNumeral_of_mem_numbers hn)

theorem unauditedNumbers_eq_nil : unauditedNumbers py text evidence extra query = [] ↔ Passes py evidence extra query text := by
  rw [eq_nil_iff_forall_not_mem]
  constructor
  · intro h n hn
    by_contra hflagged
    exact h (normalize n) (mem_unauditedNumbers.mpr ⟨n, hn, rfl, hflagged⟩)
  · intro h token htoken
    obtain ⟨n, hn, rfl, hflagged⟩ := mem_unauditedNumbers.mp htoken
    exact hflagged (h n hn)

theorem mem_allowedNumbers : token ∈ allowedNumbers py evidence extra query ↔ token ≠ [] ∧
    ((∃ item, some item ∈ extra ∧ normalize (py.str item).toList = token) ∨ (∃ row ∈ evidence, token ∈ rowNumbers py row) ∨
      ∃ n ∈ numbers py query, normalize n = token) := by
  rw [allowedNumbers, mem_filter, decide_eq_true_eq, and_comm, mem_append, mem_append, List.mem_map,
    mem_flatMap, List.mem_map, or_assoc]
  simp only [reduceOption_mem_iff]

/-! No blind spot. -/

theorem seen_of_apart (h : Apart py (cleaned py text)) : Seen py text := by
  intro m hm
  rw [← numbers_of_apart h] at hm
  exact ⟨m, hm, rfl⟩

def echoRows (py : AuditText κ) (text : List Char) : List (Row κ) :=
  (found py text).map fun n => { value := some (py.text (.ofList (normalize n))) }

theorem rowNumbers_echo (n : List Char) :
    rowNumbers py { value := some (py.text (.ofList (normalize n))) } = [normalize n] := by
  simp only [rowNumbers, py.str_text, py.whole_text, String.toList_ofList, normalize_normalize, days]
  rfl

theorem mem_allowed_echo :
    token ∈ allowedNumbers py (echoRows py text) [] [] → ∃ n ∈ found py text, normalize n = token := by
  intro h
  obtain ⟨-, ⟨item, hitem, -⟩ | ⟨row, hrow, htoken⟩ | ⟨n, hn, -⟩⟩ := mem_allowedNumbers.mp h
  · cases hitem
  · obtain ⟨n, hn, rfl⟩ := List.mem_map.mp hrow
    rw [rowNumbers_echo] at htoken
    exact ⟨n, hn, (mem_singleton.mp htoken).symm⟩
  · cases hn

theorem noBlindSpot_iff : NoBlindSpot py text ↔ Seen py text := by
  constructor
  · intro h m hm
    -- the numbers that are found are all there is to allow
    have hpasses : Passes py (echoRows py text) [] [] text := fun n hn =>
      mem_allowedNumbers.mpr ⟨normalize_ne_nil (isNumeral_of_mem_numbers hn),
        .inr (.inl ⟨_, List.mem_map_of_mem hn, by rw [rowNumbers_echo]; exact mem_singleton_self _⟩)⟩
    exact mem_allowed_echo (h (echoRows py text) [] [] (unauditedNumbers_eq_nil.mpr hpasses) m hm)
  · intro h evidence extra query hnone m hm
    obtain ⟨n, hn, hsame⟩ := h m hm
    rw [← hsame]
    exact unauditedNumbers_eq_nil.mp hnone n hn

/-! No false alarm. -/

theorem passes_of_digitless (h : ∀ c ∈ text, py.digit c = false) : Passes py evidence extra query text := by
  intro n hn
  rw [found_of_digitless h] at hn
  cases hn

theorem passes_of_isNumeral (h : IsNumeral py text) :
    Passes py evidence extra query text ↔ normalize text ∈ allowedNumbers py evidence extra query := by
  rw [Passes, found_of_isNumeral h]
  simp only [mem_singleton, forall_eq]

theorem noFalseAlarm_iff : NoFalseAlarm py evidence extra query ↔ EchoesAllowed py evidence extra query := by
  constructor
  · intro h
    have hpasses : ∀ piece, Echoed py evidence query piece → Passes py evidence extra query piece := by
      intro piece hpiece
      have halone := h [piece] fun other hother => by rw [mem_singleton.mp hother]; exact hpiece
      rw [joined, intercalate_singleton] at halone
      exact unauditedNumbers_eq_nil.mp halone
    constructor
    · exact fun m hm => (passes_of_isNumeral (isNumeral_of_mem_numerals hm)).mp (hpasses m (.asked m hm))
    · exact fun row hrow v hv => hpasses _ (.printed row hrow v hv)
    · exact fun row hrow v hv s hs => hpasses _ (.grouped row hrow v hv s hs)
    · exact fun row hrow day hday => hpasses _ (.dated row hrow day hday)
  · intro h pieces hpieces
    refine unauditedNumbers_eq_nil.mpr fun n hn => ?_
    rw [found_joined] at hn
    obtain ⟨piece, hpiece, hn⟩ := mem_flatMap.mp hn
    have hpasses : Passes py evidence extra query piece := by
      cases hpieces piece hpiece with
      | word _ hword => exact passes_of_digitless hword
      | asked _ hm => exact (passes_of_isNumeral (isNumeral_of_mem_numerals hm)).mpr (h.asked piece hm)
      | printed row hrow v hv => exact h.printed row hrow v hv
      | grouped row hrow v hv s hs => exact h.grouped row hrow v hv s hs
      | dated row hrow day hday => exact h.dated row hrow day hday
    exact hpasses n hn

theorem value_allowed {row : Row κ} (hrow : row ∈ evidence) {v : κ} (hv : row.value = some v)
    (htoken : normalize (py.str v).toList = token) (hne : token ≠ []) :
    token ∈ allowedNumbers py evidence extra query := by
  refine mem_allowedNumbers.mpr ⟨hne, .inr (.inl ⟨row, hrow, ?_⟩)⟩
  rw [rowNumbers, hv, ← htoken]
  exact mem_cons_self

/-- With the commas left out a number is printed as it is without them. -/
theorem normalize_grouped {v : κ} {s : String} (h : py.grouped v = some s) : normalize (py.str v).toList = normalize s.toList := by
  have hsplit : ∀ token : List Char, normalize token = (token.filter (· ≠ ',')).filter (· ≠ '+') := by
    intro token
    rw [normalize, List.filter_filter]
    refine filter_congr fun c _ => ?_
    simp [Bool.and_comm]
  rw [hsplit, hsplit, py.grouped_commas v s h]

theorem echoesAllowed_of_plain (h : Plain py evidence query) : EchoesAllowed py evidence extra query := by
  constructor
  · intro m hm
    have hnumber := hm
    rw [← numbers_of_apart h.asked] at hnumber
    exact mem_allowedNumbers.mpr ⟨normalize_ne_nil (isNumeral_of_mem_numerals hm), .inr (.inr ⟨m, hnumber, rfl⟩)⟩
  · intro row hrow v hv
    obtain hnumeral | hword := h.printed row hrow v hv
    · exact (passes_of_isNumeral hnumeral).mpr (value_allowed hrow hv rfl (normalize_ne_nil hnumeral))
    · exact passes_of_digitless hword
  · intro row hrow v hv s hs
    obtain hnumeral | hword := h.grouped row hrow v hv s hs
    · exact (passes_of_isNumeral hnumeral).mpr (value_allowed hrow hv (normalize_grouped hs) (normalize_ne_nil hnumeral))
    · exact passes_of_digitless hword
  · intro row hrow day hday n hn
    rw [found_of_isoDay (h.dated row hrow day hday)] at hn
    cases hn

/-! More evidence, and more of a query. -/

theorem allowedNumbers_mono {evidence' : List (Row κ)} {query' : List Char} (hrows : evidence ⊆ evidence')
    (hquery : Kept py query query') (h : token ∈ allowedNumbers py evidence extra query) :
    token ∈ allowedNumbers py evidence' extra query' := by
  obtain ⟨hne, hitem | ⟨row, hrow, htoken⟩ | ⟨n, hn, rfl⟩⟩ := mem_allowedNumbers.mp h
  · exact mem_allowedNumbers.mpr ⟨hne, .inl hitem⟩
  · exact mem_allowedNumbers.mpr ⟨hne, .inr (.inl ⟨row, hrows hrow, htoken⟩)⟩
  · exact mem_allowedNumbers.mpr ⟨hne, .inr (.inr (hquery n hn))⟩

theorem unauditedNumbers_mono {evidence' : List (Row κ)} {query' : List Char} (hrows : evidence ⊆ evidence')
    (hquery : Kept py query query') (h : token ∈ unauditedNumbers py text evidence' extra query') :
    token ∈ unauditedNumbers py text evidence extra query := by
  obtain ⟨n, hn, htoken, hflagged⟩ := mem_unauditedNumbers.mp h
  exact mem_unauditedNumbers.mpr ⟨n, hn, htoken, fun hallowed => hflagged (allowedNumbers_mono hrows hquery hallowed)⟩

theorem kept_refl (query : List Char) : Kept py query query := fun n hn => ⟨n, hn, rfl⟩

theorem kept_space (query more : List Char) : Kept py query (query ++ ' ' :: more) := by
  have hspace : py.space ' ' = true := (py.space_ascii ' ' (by decide)).trans (by decide)
  intro n hn
  refine ⟨n, ?_, rfl⟩
  rw [numbers, Regex.finditer_append numberRe_avoids hspace, map_append]
  exact mem_append_left _ hn

theorem kept_iff {query' : List Char} : (∀ text evidence extra, ∀ token ∈ unauditedNumbers py text evidence extra query',
    token ∈ unauditedNumbers py text evidence extra query) ↔ Kept py query query' := by
  constructor
  · intro h n hn
    have hnumeral := isNumeral_of_mem_numbers hn
    have hpasses : Passes py [] [] query n := (passes_of_isNumeral hnumeral).mpr
      (mem_allowedNumbers.mpr ⟨normalize_ne_nil hnumeral, .inr (.inr ⟨n, hn, rfl⟩)⟩)
    have hnone : unauditedNumbers py n [] [] query' = [] := eq_nil_iff_forall_not_mem.mpr fun token htoken => by
      have hflagged := h n [] [] token htoken
      rw [unauditedNumbers_eq_nil.mpr hpasses] at hflagged
      cases hflagged
    have hallowed := (passes_of_isNumeral hnumeral).mp (unauditedNumbers_eq_nil.mp hnone)
    obtain ⟨-, ⟨item, hitem, -⟩ | ⟨row, hrow, -⟩ | hfound⟩ := mem_allowedNumbers.mp hallowed
    · cases hitem
    · cases hrow
    · exact hfound
  · exact fun h text evidence extra token htoken => unauditedNumbers_mono (List.Subset.refl evidence) h htoken

end Audit

/-- The audit has no blind spot in a text exactly where each of its numerals is found, and lets the echoes of evidence and a
query pass exactly where the numbers found in them are allowed; more evidence never flags more, and a longer query exactly
where it loses no number. -/
theorem audit_iff {κ : Type} (py : AuditText κ) :
    (∀ text, (NoBlindSpot py text ↔ Seen py text) ∧ (Apart py (cleaned py text) → Seen py text)) ∧
    (∀ evidence extra query, (NoFalseAlarm py evidence extra query ↔ EchoesAllowed py evidence extra query) ∧
      (Plain py evidence query → EchoesAllowed py evidence extra query)) ∧
    (∀ text evidence evidence' extra query, evidence ⊆ evidence' → ∀ token ∈ unauditedNumbers py text evidence' extra query,
      token ∈ unauditedNumbers py text evidence extra query) ∧
    ∀ query more, ((∀ text evidence extra, ∀ token ∈ unauditedNumbers py text evidence extra (query ++ more),
      token ∈ unauditedNumbers py text evidence extra query) ↔ Kept py query (query ++ more)) ∧
      Kept py query (query ++ ' ' :: more) :=
  ⟨fun _ => ⟨noBlindSpot_iff, seen_of_apart⟩, fun _ _ _ => ⟨noFalseAlarm_iff, echoesAllowed_of_plain⟩,
    fun _ _ _ _ query hrows _ htoken => unauditedNumbers_mono hrows (kept_refl query) htoken,
    fun query more => ⟨kept_iff, kept_space query more⟩⟩

/-- ASCII, and the letters that match others when case is ignored. -/
def asciiWord (c : Char) : Bool := c.isAlphanum || c = '_' || c ∈ ['İ', 'ı', 'ſ', '\u212a']

theorem not_other {c : Char} (h : c.toNat < 128) : c ∉ ['İ', 'ı', 'ſ', '\u212a'] := by
  simp only [mem_cons, not_mem_nil, or_false]
  rintro (rfl | rfl | rfl | rfl) <;> exact absurd h (by decide)

def asciiAudit : AuditText String where
  toPythonText := { asciiText with
    str := id
    word := asciiWord
    word_ascii := fun c h => by rw [asciiWord, decide_eq_false (not_other h), Bool.or_false]
    word_dash := by decide }
  whole _ := none
  grouped _ := none
  text := id
  str_text _ := rfl
  whole_text _ := rfl
  grouped_commas _ _ h := (by cases h)
  space_ascii _ _ := rfl
  space_word c h := by
    have hsmall : c.toNat ≤ 32 := by
      simp only [asciiText, Bool.or_eq_true, Bool.and_eq_true, decide_eq_true_eq] at h
      obtain (rfl | h) | h := h
      · decide
      · omega
      · omega
    by_contra hword
    have hword : asciiWord c = true := by simpa using hword
    rw [asciiWord, decide_eq_false (not_other (by omega)), Bool.or_false, Bool.or_eq_true, decide_eq_true_eq] at hword
    simp only [Char.isAlphanum, Char.isAlpha, Char.isUpper, Char.isLower, Char.isDigit, ge_iff_le, UInt32.le_iff_toNat_le,
      Bool.or_eq_true, Bool.and_eq_true, decide_eq_true_eq] at hword
    obtain ((h | h) | h) | rfl := hword
    · exact absurd (h.1.trans hsmall) (by decide)
    · exact absurd (h.1.trans hsmall) (by decide)
    · exact absurd (h.1.trans hsmall) (by decide)
    · exact absurd hsmall (by decide)
  digit_word c h := by
    have hdigit : c.isDigit = true := h
    show asciiWord c = true
    rw [asciiWord, Char.isAlphanum, hdigit, Bool.or_true]
    rfl
  word_other := List.all_eq_true.mp (by decide)

def yearEnd : Row String := { value := some "7", start := some "1999-12-31", stop := some "1999-12-31" }

theorem yearEnd_flags_less : ∀ token ∈ unauditedNumbers asciiAudit "7 of 12".toList [yearEnd] [] [],
    token ∈ unauditedNumbers asciiAudit "7 of 12".toList [] [] [] :=
  (audit_iff asciiAudit).2.2.1 _ [] [yearEnd] [] [] (nil_subset _)

/-- A multiple goes unseen, a date of the last century is flagged, and a letter behind a query takes its number away. -/
theorem fiveTimes_unseen : ¬ NoBlindSpot asciiAudit "Sales grew 5x".toList ∧ ¬ NoFalseAlarm asciiAudit [yearEnd] [] [] ∧
    ¬ ∀ text evidence extra, ∀ token ∈ unauditedNumbers asciiAudit text evidence extra ("top 12".toList ++ "k".toList),
      token ∈ unauditedNumbers asciiAudit text evidence extra "top 12".toList := by
  refine ⟨fun h => ?_, fun h => ?_, fun h => ?_⟩
  · have hallowed := h [] [] [] (by decide +kernel) "5".toList (by decide +kernel)
    revert hallowed
    decide +kernel
  · have hnone := h ["1999-12-31".toList] fun piece hpiece => by
      rw [mem_singleton.mp hpiece]
      exact .dated yearEnd (mem_singleton_self _) "1999-12-31" (.inl rfl)
    revert hnone
    decide +kernel
  · have hflagged := h "12".toList [] [] "12".toList (by decide +kernel)
    revert hflagged
    decide +kernel

end SelericSwarm.NumericAudit
