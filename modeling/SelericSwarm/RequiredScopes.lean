import Mathlib
import SelericSwarm.CatalogueBootstrap
import SelericSwarm.LastWrites
import SelericSwarm.Partitions
import SelericSwarm.RedactionPatterns
import SelericSwarm.RegexSearch
import SelericSwarm.ValidationChecks

/-! Which breakdowns a question demands: a phrase behind "by" is resolved to the dimensions that it may mean, and
the evidence has to be grouped by one of them. Texts are lists of characters here, and ids are strings. -/
namespace SelericSwarm.Scope
open Keyed Backtracking Partition List

/-- What Python knows of texts: `\w`, and `lower`, which looks past no space and changes nothing twice. -/
structure ScopeText where
  word : Char → Bool
  lower : List Char → List Char
  lower_fixed : ∀ text, (∀ c ∈ text, lower [c] = [c]) → lower text = text
  lower_lower : ∀ text, ∀ c ∈ lower text, lower [c] = [c]
  lower_space : ∀ text behind, lower (text ++ ' ' :: behind) = lower text ++ ' ' :: lower behind
  lower_underscore : lower ['_'] = ['_']
  lower_ne_nil : ∀ text, text ≠ [] → lower text ≠ []

def isSpace (c : Char) : Bool := c.toNat ∈ stripped

def strip (text : List Char) : List Char := trim isSpace isSpace text

/-- `text.split()` -/
def split (text : List Char) : List (List Char) := (text.splitOnP isSpace).filter (· ≠ [])

def join (words : List (List Char)) : List Char := [' '].intercalate words

/-! `_BREAKDOWN_RE`. -/

def spaces : Regex := .many 1 (.char isSpace)

/-- Words with spaces between them. -/
def wordsOf : List String → Regex
  | [] => .empty
  | [word] => insensitive word
  | word :: words => .seq (insensitive word) (.seq spaces (wordsOf words))

def leadIn : Regex :=
  .alt (wordsOf ["split", "by"]) (.alt (wordsOf ["broken", "down", "by"])
    (.alt (.seq (insensitive "groupe") (.seq (.opt (insensitive "d")) (.seq spaces (insensitive "by"))))
      (.alt (wordsOf ["group", "by"]) (.alt (wordsOf ["breakdown", "by"])
        (.alt (insensitive "by") (.alt (insensitive "per") (insensitive "across")))))))

/-- As often as it goes, and so often at most. -/
def upTo (r : Regex) : Nat → Regex
  | 0 => .empty
  | n + 1 => .opt (.seq r (upTo r n))

def stopwords : List (List Char) :=
  ["last", "this", "next", "the", "a", "an", "for", "in", "on", "over", "and", "of", "to"].map String.toList

def spaced (c : Char) : Char := if c = '-' ∨ c = '_' then ' ' else c

def underscored (c : Char) : Char := if c = ' ' then '_' else c

local instance lawfulText : LawfulBEq (List Char) := inferInstance

section Build
variable (py : ScopeText)

def breakdownPattern : Regex :=
  .seq (.boundary py.word) (.seq leadIn (.seq spaces (.group 1 (.seq (.char fun c => alphanumeric c && !c.isDigit)
    (upTo (.char fun c => alphanumeric c || c ∈ " _/-".toList) 40)))))

/-- What stands behind the lead-ins of a question. -/
def captured (query : List Char) : List (List Char) :=
  ((breakdownPattern py).finditer query).map fun found => (found.2.lookup 1).getD []

def normalize (text : List Char) : List Char := (py.lower (strip text)).map spaced

/-- At most three words, up to a stopword. -/
def kept (text : List Char) : List (List Char) :=
  ((split text).take 3).takeWhile fun word => normalize py word ∉ stopwords

/-- A phrase from its longest reading to its first word. -/
def ngrams (words : List (List Char)) : List (List Char) :=
  (List.range words.length).reverse.map fun n => join (words.take (n + 1))

def candidateTermGroups (query : List Char) : List (List (List Char)) :=
  ((captured py query).map fun text => ngrams (kept py text)).filter (· ≠ [])

/-! `CatalogueBootstrap.alias_index`. -/

def spelling (name : String) : List Char := (py.lower name.toList).map fun c => if c = '_' then ' ' else c

/-- What a dimension puts into the index: its id's spelling, and those of its aliases. -/
def spellings (dim : String × List String) : List (List Char) :=
  spelling py dim.1 :: (dim.2.map fun name => strip (spelling py name)).filter (· ≠ [])

def aliasIndex (c : Catalogue.Content) : Dict (List Char) String :=
  Dict.written (fun dim => (spellings py dim).map fun key => (key, dim.1)) c.dimensionAliases.rows

section Resolution
variable (aliases : Dict (List Char) String) (dims : List String)

def resolveDimensionCandidates (term : List Char) : List String :=
  let key := normalize py term
  let asId := String.ofList (key.map underscored)
  let tokens := split key
  if key = [] then []
  else ((if asId ∈ dims then [asId] else []) ++ (aliases.get? key).toList ++
    (dims.filter fun dim => tokens ⊆ split (normalize py dim.toList)) ++
    (aliases.rows.filter fun entry => tokens ⊆ split entry.1).map Prod.snd).dedup

/-- The first reading that means something. -/
def firstResolved (terms : List (List Char)) : Option (List String) :=
  (terms.map (resolveDimensionCandidates py aliases dims)).find? (· ≠ [])

/-- A set among sets. -/
def addSet (sets : List (List String)) (set : List String) : List (List String) :=
  if sets.any fun other => other ⊆ set ∧ set ⊆ other then sets else sets ++ [set]

def buildRequiredScope (query : List Char) : Validation.RequiredScope :=
  if aliases.rows.isEmpty ∧ dims.isEmpty then {}
  else { breakdowns := ((candidateTermGroups py query).filterMap (firstResolved py aliases dims)).foldl addSet [] }

/-- What the first words of a phrase mean. -/
def reading (text : List Char) (n : Nat) : List String :=
  resolveDimensionCandidates py aliases dims (join ((kept py text).take n))

end Resolution
end Build

/-! Words. -/

variable {py : ScopeText} {text behind : List Char} {c : Char}

theorem split_append (hc : isSpace c = true) : split (text ++ c :: behind) = split text ++ split behind := by
  rw [split, splitOnP_append_cons _ _ hc, filter_append]
  rfl

theorem split_map_strip {f : Char → Char} (hf : ∀ c, isSpace c = true → isSpace (f c) = true) (text : List Char) :
    split ((strip text).map f) = split (text.map f) := by
  have hfront (text : List Char) : split ((text.dropWhile isSpace).map f) = split (text.map f) := by
    induction text with
    | nil => rfl
    | cons c text ih =>
      rw [dropWhile_cons]
      split
      next hc =>
        rw [ih, map_cons]
        exact (@split_append [] _ _ (hf c hc)).symm
      next => rfl
  have hback (text : List Char) : split ((text.rdropWhile isSpace).map f) = split (text.map f) := by
    induction text using List.reverseRecOn with
    | nil => rfl
    | append_singleton text c ih =>
      rw [rdropWhile_concat]
      split
      next hc =>
        rw [ih, map_append, map_singleton, split_append (hf c hc)]
        exact (append_nil _).symm
      next => rfl
  exact (hback _).trans (hfront text)

theorem of_mem_splitOnP {p : Char → Bool} : ∀ text : List Char, ∀ word ∈ text.splitOnP p, ∀ c ∈ word, p c = false := by
  intro text
  induction text with
  | nil => simp
  | cons x text ih =>
    intro word hword
    rw [splitOnP_cons_eq_if_modifyHead] at hword
    split at hword
    next =>
      obtain rfl | hword := mem_cons.mp hword
      · exact nofun
      · exact ih word hword
    next hx =>
      cases htext : text.splitOnP p with
      | nil => exact absurd htext (splitOnP_ne_nil p text)
      | cons first words =>
        rw [htext] at hword ih
        obtain rfl | hword := mem_cons.mp hword
        · exact forall_mem_cons.mpr ⟨by simpa using hx, ih first mem_cons_self⟩
        · exact ih word (mem_cons_of_mem _ hword)

theorem normalize_nil : normalize py [] = [] := by
  rw [normalize, show strip [] = [] from rfl, py.lower_fixed [] nofun]
  rfl

/-- Not empty, and without spaces. -/
def Word (word : List Char) : Prop := word ≠ [] ∧ ∀ c ∈ word, isSpace c = false

theorem word_of_mem_split {word : List Char} (h : word ∈ split text) : Word word := by
  obtain ⟨hmem, hne⟩ := mem_filter.mp h
  exact ⟨by simpa using hne, of_mem_splitOnP text word hmem⟩

section Words
variable {words : List (List Char)} (h : ∀ word ∈ words, Word word)
include h

theorem join_ne_nil (hne : words ≠ []) : join words ≠ [] := by
  cases words with
  | nil => exact absurd rfl hne
  | cons word words =>
    obtain ⟨c, word, rfl⟩ := exists_cons_of_ne_nil (h word mem_cons_self).1
    cases words <;> exact cons_ne_nil _ _

theorem strip_join : strip (join words) = join words := by
  have hfront : (join words).dropWhile isSpace = join words := by
    cases words with
    | nil => rfl
    | cons word words =>
      obtain ⟨hne, hword⟩ := h word mem_cons_self
      obtain ⟨c, word, rfl⟩ := exists_cons_of_ne_nil hne
      have hc : ¬ isSpace c = true := by simp [hword c mem_cons_self]
      cases words <;> exact dropWhile_cons_of_neg hc
  have hlast : ∀ c ∈ (join words).getLast?, isSpace c = false := by
    clear hfront
    induction words with
    | nil => exact nofun
    | cons word words ih =>
      cases words with
      | nil => exact fun c hc => (h word mem_cons_self).2 c (mem_of_getLast? (by simpa [join] using hc))
      | cons second words =>
        have htail := fun w hw => h w (mem_cons_of_mem _ hw)
        have hc := List.getLast?_eq_some_getLast (join_ne_nil htail (cons_ne_nil _ _))
        have hsame : (join (word :: second :: words)).getLast? = (join (second :: words)).getLast? := by
          change (word ++ ' ' :: join (second :: words)).getLast? = _
          simp [List.getLast?_append, List.getLast?_cons, hc]
        rw [hsame]
        exact ih htail
  rw [strip, trim, hfront, rdropWhile_eq_self_iff]
  intro hne
  simp [hlast _ (List.getLast?_eq_some_getLast hne)]

/-- The words of a phrase, each normalised, one after another. -/
theorem split_normalize_join :
    split (normalize py (join words)) = words.flatMap fun word => split ((py.lower word).map spaced) := by
  rw [normalize, strip_join h]
  clear h
  induction words with
  | nil =>
    rw [show join [] = [] from rfl, py.lower_fixed [] nofun]
    rfl
  | cons word words ih =>
    cases words with
    | nil => simp [join]
    | cons second words =>
      rw [show join (word :: second :: words) = word ++ ' ' :: join (second :: words) from rfl, py.lower_space,
        map_append, map_cons, show spaced ' ' = ' ' from rfl, split_append (by decide), ih]
      simp only [flatMap_cons]

theorem normalize_join_ne_nil (hne : words ≠ []) : normalize py (join words) ≠ [] := by
  rw [normalize, strip_join h, Ne, map_eq_nil_iff]
  exact py.lower_ne_nil _ (join_ne_nil h hne)

end Words

/-- A term written as an id has the same words. -/
theorem split_normalize_underscored (term : List Char) :
    split (normalize py ((normalize py term).map underscored)) = split (normalize py term) := by
  have hkey : ∀ c ∈ normalize py term, c ≠ '-' ∧ c ≠ '_' ∧ (c ≠ ' ' → py.lower [c] = [c]) := by
    intro c hc
    obtain ⟨d, hd, rfl⟩ := List.mem_map.mp hc
    unfold spaced
    split
    next => exact ⟨by decide, by decide, fun hne => absurd rfl hne⟩
    next hplain =>
      obtain ⟨hdash, hunder⟩ := not_or.mp hplain
      exact ⟨hdash, hunder, fun _ => py.lower_lower _ d hd⟩
  have hfixed : ∀ c ∈ (normalize py term).map underscored, py.lower [c] = [c] := by
    intro c hc
    obtain ⟨d, hd, rfl⟩ := List.mem_map.mp hc
    unfold underscored
    split
    next => exact py.lower_underscore
    next hne => exact (hkey d hd).2.2 hne
  have hspace : ∀ c, isSpace c = true → isSpace (spaced c) = true := by
    intro c hc
    unfold spaced
    split
    · decide
    · exact hc
  have hback : ((normalize py term).map underscored).map spaced = normalize py term := by
    rw [List.map_map]
    refine (map_congr_left fun c hc => ?_).trans (List.map_id _)
    obtain ⟨hdash, hunder, -⟩ := hkey c hc
    by_cases hc : c = ' '
    · subst hc
      rfl
    · simp [underscored, spaced, hc, hdash, hunder]
  have hlower := py.lower_fixed _ fun c hc => hfixed c ((trim_part (p := isSpace) (q := isSpace) _).subset hc)
  rw [normalize, strip, hlower, ← strip, split_map_strip hspace, hback]

/-! What a term means. -/

section Meaning
variable {aliases : Dict (List Char) String} {dims : List String} {dim : String} {term : List Char} {m n : Nat}

/-- All the words are in the name of the dimension, or in one spelling of it. -/
def Means (py : ScopeText) (aliases : Dict (List Char) String) (dims : List String) (tokens : List (List Char))
    (dim : String) : Prop :=
  dim ∈ dims ∧ tokens ⊆ split (normalize py dim.toList) ∨ ∃ key, (key, dim) ∈ aliases.rows ∧ tokens ⊆ split key

theorem Means.mono {tokens tokens' : List (List Char)} (hsub : tokens' ⊆ tokens) (h : Means py aliases dims tokens dim) :
    Means py aliases dims tokens' dim :=
  h.imp (And.imp_right (List.Subset.trans hsub)) fun ⟨key, hkey, htokens⟩ => ⟨key, hkey, List.Subset.trans hsub htokens⟩

/-- The exact matches are among those by words. -/
theorem mem_resolveDimensionCandidates : dim ∈ resolveDimensionCandidates py aliases dims term ↔
    normalize py term ≠ [] ∧ Means py aliases dims (split (normalize py term)) dim := by
  unfold resolveDimensionCandidates
  dsimp only
  split
  next hkey => simp [hkey]
  next hkey =>
    have hid : dim = String.ofList ((normalize py term).map underscored) →
        split (normalize py term) ⊆ split (normalize py dim.toList) := by
      rintro rfl
      rw [String.toList_ofList, split_normalize_underscored]
      exact List.Subset.refl _
    have halias : aliases.get? (normalize py term) = some dim → (normalize py term, dim) ∈ aliases.rows := by
      intro hget
      obtain ⟨entry, hentry, rfl⟩ := Option.map_eq_some_iff.mp hget
      have hmem := Table.mem_of_get? hentry
      rwa [← Table.key_of_get? hentry]
    simp only [mem_dedup, mem_append, mem_filter, decide_eq_true_eq, Option.mem_toList, List.mem_map,
      Prod.exists, exists_eq_right, ne_eq, hkey, not_false_eq_true, true_and]
    constructor
    · rintro (((hasId | hget) | hname) | ⟨key, hkeyed⟩)
      · split at hasId
        next hin =>
          obtain rfl := mem_singleton.mp hasId
          exact Or.inl ⟨hin, hid rfl⟩
        next => cases hasId
      · exact Or.inr ⟨_, halias hget, List.Subset.refl _⟩
      · exact Or.inl hname
      · exact Or.inr ⟨key, hkeyed⟩
    · rintro (hname | ⟨key, hkeyed⟩)
      · exact Or.inl (Or.inr hname)
      · exact Or.inr ⟨key, hkeyed⟩

theorem word_of_mem_kept {word : List Char} (h : word ∈ (kept py text).take n) : Word word :=
  word_of_mem_split ((take_sublist _ _).subset ((takeWhile_sublist _).subset (mem_of_mem_take h)))

/-- Fewer words mean more dimensions. -/
theorem reading_subset (hm : 1 ≤ m) (hle : m ≤ n) : reading py aliases dims text n ⊆ reading py aliases dims text m := by
  intro dim hdim
  obtain ⟨hkey, hmeans⟩ := mem_resolveDimensionCandidates.mp hdim
  have hwords := fun k word (h : word ∈ (kept py text).take k) => word_of_mem_kept h
  have hsome : (kept py text).take m ≠ [] := by
    intro hnil
    obtain hzero | hnone := take_eq_nil_iff.mp hnil
    · omega
    · rw [hnone, take_nil] at hkey
      exact hkey normalize_nil
  refine mem_resolveDimensionCandidates.mpr ⟨normalize_join_ne_nil (hwords m) hsome, hmeans.mono ?_⟩
  rw [split_normalize_join (hwords m), split_normalize_join (hwords n)]
  intro token htoken
  obtain ⟨word, hword, htoken⟩ := mem_flatMap.mp htoken
  exact mem_flatMap.mpr ⟨word, (take_prefix_take_left hle).subset hword, htoken⟩

/-- The longest reading that means something. -/
structure Longest (py : ScopeText) (aliases : Dict (List Char) String) (dims : List String) (text : List Char)
    (n : Nat) : Prop where
  bounds : 1 ≤ n ∧ n ≤ (kept py text).length
  means : reading py aliases dims text n ≠ []
  longer : ∀ m, n < m → m ≤ (kept py text).length → reading py aliases dims text m = []

theorem find?_reverse_range {α : Type} (f : Nat → α) (p : α → Bool) (x : α) : ∀ length,
    ((List.range length).reverse.map f).find? p = some x ↔
      ∃ n < length, f n = x ∧ p x = true ∧ ∀ m, n < m → m < length → p (f m) = false := by
  intro length
  induction length with
  | zero => simp
  | succ length ih =>
    rw [range_succ, reverse_append, reverse_singleton, singleton_append, map_cons, List.find?_cons]
    cases hlast : p (f length) with
    | true =>
      constructor
      · intro h
        obtain rfl := Option.some.inj h
        exact ⟨length, Nat.lt_succ_self _, rfl, hlast, fun m hm hm' => by omega⟩
      · rintro ⟨n, hn, rfl, -, hlonger⟩
        obtain rfl | hlt := Nat.eq_or_lt_of_le (Nat.lt_succ_iff.mp hn)
        · rfl
        · rw [hlonger length hlt (Nat.lt_succ_self _)] at hlast
          cases hlast
    | false =>
      refine ih.trans ⟨?_, ?_⟩
      · rintro ⟨n, hn, hx, hp, hlonger⟩
        refine ⟨n, Nat.lt_succ_of_lt hn, hx, hp, fun m hm hm' => ?_⟩
        obtain rfl | hlt := Nat.eq_or_lt_of_le (Nat.lt_succ_iff.mp hm')
        · exact hlast
        · exact hlonger m hm hlt
      · rintro ⟨n, hn, rfl, hp, hlonger⟩
        obtain rfl | hlt := Nat.eq_or_lt_of_le (Nat.lt_succ_iff.mp hn)
        · rw [hlast] at hp
          cases hp
        · exact ⟨n, hlt, rfl, hp, fun m hm hm' => hlonger m hm (Nat.lt_succ_of_lt hm')⟩

theorem firstResolved_eq_some {set : List String} : firstResolved py aliases dims (ngrams (kept py text)) = some set ↔
    ∃ n, Longest py aliases dims text n ∧ reading py aliases dims text n = set := by
  have hmap : (ngrams (kept py text)).map (resolveDimensionCandidates py aliases dims) =
      (List.range (kept py text).length).reverse.map fun n => reading py aliases dims text (n + 1) := List.map_map
  rw [firstResolved, hmap, find?_reverse_range]
  constructor
  · rintro ⟨n, hn, rfl, hp, hlonger⟩
    refine ⟨n + 1, ⟨⟨by omega, hn⟩, by simpa using hp, fun m hm hm' => ?_⟩, rfl⟩
    obtain ⟨m, rfl⟩ := Nat.exists_eq_add_of_lt hm
    simpa using hlonger (n + 1 + m) (by omega) (by omega)
  · rintro ⟨n, hlongest, rfl⟩
    obtain ⟨hpos, hle⟩ := hlongest.bounds
    obtain ⟨n, rfl⟩ := Nat.exists_eq_add_of_le' hpos
    refine ⟨n, hle, rfl, by simpa using hlongest.means, fun m hm hm' => ?_⟩
    simpa using hlongest.longer (m + 1) (by omega) (by omega)

theorem forall_addSet {p : List String → Prop} (hp : ∀ set set' : List String, set ⊆ set' → set' ⊆ set → (p set ↔ p set')) :
    ∀ sets acc : List (List String), (∀ set ∈ sets.foldl addSet acc, p set) ↔ (∀ set ∈ acc, p set) ∧ ∀ set ∈ sets, p set := by
  intro sets
  induction sets with
  | nil => simp
  | cons set sets ih =>
    intro acc
    have hadd : (∀ other ∈ addSet acc set, p other) ↔ (∀ other ∈ acc, p other) ∧ p set := by
      unfold addSet
      split
      next hany =>
        obtain ⟨other, hother, hsame⟩ := List.any_eq_true.mp hany
        obtain ⟨hsub, hsub'⟩ := of_decide_eq_true hsame
        exact ⟨fun h => ⟨h, (hp other set hsub hsub').mp (h other hother)⟩, And.left⟩
      next => rw [forall_mem_append, forall_mem_singleton]
    rw [foldl_cons, ih, hadd, forall_mem_cons, and_assoc]

/-- What a question demands. -/
theorem forall_breakdowns {p : List String → Prop} (query : List Char)
    (hp : ∀ set set' : List String, set ⊆ set' → set' ⊆ set → (p set ↔ p set')) :
    (∀ set ∈ (buildRequiredScope py aliases dims query).breakdowns, p set) ↔
      ∀ text ∈ captured py query, ∀ n, Longest py aliases dims text n → p (reading py aliases dims text n) := by
  unfold buildRequiredScope
  split
  next hempty =>
    obtain ⟨haliases, hdims⟩ := hempty
    refine ⟨fun _ text _ n hlongest => absurd (eq_nil_iff_forall_not_mem.mpr fun dim hdim => ?_) hlongest.means, ?_⟩
    · obtain ⟨hmem, -⟩ | ⟨key, hkey, -⟩ := (mem_resolveDimensionCandidates.mp hdim).2
      · rw [List.isEmpty_iff.mp hdims] at hmem
        cases hmem
      · rw [List.isEmpty_iff.mp haliases] at hkey
        cases hkey
    · exact fun _ set hset => absurd hset not_mem_nil
  next =>
    rw [forall_addSet hp]
    constructor
    · rintro ⟨-, h⟩ text htext n hlongest
      refine h _ (mem_filterMap.mpr ⟨ngrams (kept py text), mem_filter.mpr
        ⟨List.mem_map.mpr ⟨text, htext, rfl⟩, ?_⟩, firstResolved_eq_some.mpr ⟨n, hlongest, rfl⟩⟩)
      have hlength : 0 < (kept py text).length := hlongest.bounds.1.trans hlongest.bounds.2
      simpa [ngrams] using length_pos_iff.mp hlength
    · intro h
      refine ⟨fun _ hmem => absurd hmem not_mem_nil, fun set hset => ?_⟩
      obtain ⟨terms, hterms, hresolved⟩ := mem_filterMap.mp hset
      obtain ⟨text, htext, rfl⟩ := List.mem_map.mp (mem_filter.mp hterms).1
      obtain ⟨n, hlongest, rfl⟩ := firstResolved_eq_some.mp hresolved
      exact h text htext n hlongest

theorem exists_longest_iff : (∃ n, Longest py aliases dims text n) ↔ reading py aliases dims text 1 ≠ [] := by
  constructor
  · rintro ⟨n, hlongest⟩ hnil
    have hsub : reading py aliases dims text n ⊆ reading py aliases dims text 1 :=
      reading_subset (Nat.le_refl 1) hlongest.bounds.1
    exact hlongest.means (subset_nil.mp (hnil ▸ hsub))
  · intro hfirst
    have hlength : 0 < (kept py text).length := by
      refine length_pos_iff.mpr fun hnil => hfirst ?_
      have hkey : normalize py (join ((kept py text).take 1)) = [] := by
        rw [hnil]
        exact normalize_nil
      rw [reading, resolveDimensionCandidates, if_pos hkey]
    cases hfound : firstResolved py aliases dims (ngrams (kept py text)) with
    | some set =>
      obtain ⟨n, hlongest, -⟩ := firstResolved_eq_some.mp hfound
      exact ⟨n, hlongest⟩
    | none =>
      have hnone := List.find?_eq_none.mp hfound (reading py aliases dims text 1)
        (List.mem_map_of_mem (List.mem_map.mpr ⟨0, by simpa using hlength, rfl⟩))
      exact absurd (by simpa using hnone) hfirst

theorem checkScopeCoverage_insufficient {runtime : Validation.Runtime} {artifacts : List Artifact}
    {scope : Validation.RequiredScope} :
    (Validation.checkScopeCoverage runtime artifacts (some scope)).status = .insufficient ↔
      Validation.ofType "evidence" artifacts ≠ [] ∧
        ((∃ set ∈ scope.breakdowns, ∀ dim ∈ set,
            dim ∉ Validation.groupedBy runtime (Validation.ofType "evidence" artifacts)) ∨
          ∃ vf ∈ scope.valueFilters, ∀ dim ∈ vf.dimensions,
            dim ∉ Validation.groupedBy runtime (Validation.ofType "evidence" artifacts)) := by
  unfold Validation.checkScopeCoverage
  dsimp only [Option.elim_some]
  split
  next hnone =>
    refine ⟨fun h => (by cases h), ?_⟩
    rintro ⟨hevidence, hgap⟩
    obtain ⟨hbreakdowns, hfilters⟩ | hnil := hnone
    · rw [hbreakdowns, List.isEmpty_iff.mp hfilters] at hgap
      simp at hgap
    · exact absurd hnil hevidence
  next hsome =>
    have hevidence := (not_or.mp hsome).2
    split
    next hgaps =>
      refine ⟨fun h => (by cases h), ?_⟩
      rintro ⟨-, hgap⟩
      simp only [append_eq_nil_iff, map_eq_nil_iff, filter_eq_nil_iff] at hgaps
      obtain ⟨set, hset, hnot⟩ | ⟨vf, hvf, hnot⟩ := hgap
      · exact absurd (by simpa using hnot) (hgaps.1 set hset)
      · exact absurd (by simpa using hnot) (hgaps.2 vf hvf)
    next hgaps =>
      refine ⟨fun _ => ⟨hevidence, ?_⟩, fun _ => rfl⟩
      simp only [append_eq_nil_iff, map_eq_nil_iff, filter_eq_nil_iff, not_and_or, not_forall] at hgaps
      obtain ⟨set, hset, hnot⟩ | ⟨vf, hvf, hnot⟩ := hgaps
      · exact Or.inl ⟨set, hset, by simpa using hnot⟩
      · exact Or.inr ⟨vf, hvf, by simpa using hnot⟩

theorem valueFilters_buildRequiredScope (query : List Char) :
    (buildRequiredScope py aliases dims query).valueFilters = [] := by
  unfold buildRequiredScope
  split <;> rfl

/-- What the evidence has to be grouped by: one of the dimensions that the longest reading of each phrase means, of
which its first word alone means as many or more. -/
structure ScopeLaws (py : ScopeText) (aliases : Dict (List Char) String) (dims : List String) (query : List Char) : Prop where
  known : ∀ set ∈ (buildRequiredScope py aliases dims query).breakdowns, ∀ dim ∈ set,
    dim ∈ dims ∨ dim ∈ aliases.rows.map Prod.snd
  headed : ∀ text ∈ captured py query, (∃ n, Longest py aliases dims text n) ↔ reading py aliases dims text 1 ≠ []
  narrowed : ∀ text ∈ captured py query, ∀ n, Longest py aliases dims text n →
    reading py aliases dims text n ⊆ reading py aliases dims text 1
  covered : ∀ (runtime : Validation.Runtime) (artifacts : List Artifact),
    (Validation.checkScopeCoverage runtime artifacts (some (buildRequiredScope py aliases dims query))).status =
        .insufficient ↔
      Validation.ofType "evidence" artifacts ≠ [] ∧ ∃ text ∈ captured py query, ∃ n, Longest py aliases dims text n ∧
        ∀ dim ∈ reading py aliases dims text n, dim ∉ Validation.groupedBy runtime (Validation.ofType "evidence" artifacts)

theorem required_scope_laws (py : ScopeText) (aliases : Dict (List Char) String) (dims : List String)
    (query : List Char) : ScopeLaws py aliases dims query where
  known := by
    have hknown : ∀ set set' : List String, set ⊆ set' → set' ⊆ set →
        ((∀ dim ∈ set, dim ∈ dims ∨ dim ∈ aliases.rows.map Prod.snd) ↔
          ∀ dim ∈ set', dim ∈ dims ∨ dim ∈ aliases.rows.map Prod.snd) := fun set set' hsub hsub' =>
      ⟨fun h dim hdim => h dim (hsub' hdim), fun h dim hdim => h dim (hsub hdim)⟩
    refine (forall_breakdowns query hknown).mpr fun text _ n _ dim hdim => ?_
    obtain ⟨hmem, -⟩ | ⟨key, hkey, -⟩ := (mem_resolveDimensionCandidates.mp hdim).2
    · exact Or.inl hmem
    · exact Or.inr (List.mem_map.mpr ⟨(key, dim), hkey, rfl⟩)
  headed _ _ := exists_longest_iff
  narrowed _ _ _ hlongest := reading_subset (Nat.le_refl 1) hlongest.bounds.1
  covered runtime artifacts := by
    have hgrouped : ∀ set set' : List String, set ⊆ set' → set' ⊆ set →
        ((∃ dim ∈ set, dim ∈ Validation.groupedBy runtime (Validation.ofType "evidence" artifacts)) ↔
          ∃ dim ∈ set', dim ∈ Validation.groupedBy runtime (Validation.ofType "evidence" artifacts)) :=
      fun set set' hsub hsub' =>
        ⟨fun ⟨dim, hdim, hin⟩ => ⟨dim, hsub hdim, hin⟩, fun ⟨dim, hdim, hin⟩ => ⟨dim, hsub' hdim, hin⟩⟩
    have hcovered := not_congr (@forall_breakdowns py aliases dims _ query hgrouped)
    push Not at hcovered
    rw [checkScopeCoverage_insufficient, valueFilters_buildRequiredScope, hcovered]
    simp

end Meaning

/-- A dimension is found under its own name exactly where no later one is spelled so too. -/
theorem aliasIndex_names_iff (c : Catalogue.Content) {before after : List (String × List String)}
    {dim : String × List String} (hrows : c.dimensionAliases.rows = before ++ dim :: after) :
    (aliasIndex py c).get? (spelling py dim.1) = some dim.1 ↔
      ∀ later ∈ after, spelling py dim.1 ∉ spellings py later := by
  have hkeys := c.dimensionAliases.nodup
  unfold aliasIndex
  rw [hrows] at hkeys ⊢
  clear hrows
  have hlast : ∀ (rows : List (String × List String)) last, ∀ key ∈ spellings py last,
      (Dict.written (fun dim => (spellings py dim).map fun key => (key, dim.1)) (rows ++ [last])).get? key =
        some last.1 := by
    intro rows last key hkey
    refine Dict.get?_written_concat (List.mem_map.mpr ⟨key, hkey, rfl⟩) fun dim hdim => ?_
    obtain ⟨_, -, heq⟩ := List.mem_map.mp hdim
    exact (congrArg Prod.snd heq).symm
  -- what is spelled as the dimension takes its place; anything else leaves the entry as it is
  induction after using List.reverseRecOn with
  | nil => exact iff_of_true (hlast _ _ _ mem_cons_self) fun later hlater => absurd hlater not_mem_nil
  | append_singleton after last ih =>
    rw [← cons_append, ← append_assoc] at hkeys ⊢
    rw [map_append, map_singleton, nodup_append] at hkeys
    have hbefore : _ ↔ _ := ih hkeys.1
    rw [forall_mem_append, forall_mem_singleton, ← hbefore]
    by_cases hkey : spelling py dim.1 ∈ spellings py last
    · rw [hlast _ _ _ hkey]
      refine iff_of_false (fun hsame => ?_) fun h => h.2 hkey
      have hdim : dim.1 ∈ (before ++ dim :: after).map Prod.fst :=
        List.mem_map_of_mem (mem_append_right _ mem_cons_self)
      exact hkeys.2.2 dim.1 hdim last.1 mem_cons_self (Option.some.inj hsame).symm
    · rw [Dict.get?_written_concat_of_ne fun v hv => ?_, and_iff_left hkey]
      obtain ⟨_, hmem, heq⟩ := List.mem_map.mp hv
      cases heq
      exact hkey hmem

/-! Texts of ASCII characters. -/

def asciiScope : ScopeText where
  word c := c.isAlphanum || c = '_'
  lower text := text.map Char.toLower
  lower_fixed text h := (map_congr_left fun c hc => singleton_inj.mp (h c hc)).trans (List.map_id _)
  lower_lower text c hc := by
    obtain ⟨d, -, rfl⟩ := List.mem_map.mp hc
    exact congrArg List.singleton (Char.toLower_toLower_eq_toLower d)
  lower_space text behind := map_append
  lower_underscore := rfl
  lower_ne_nil text h := mt map_eq_nil_iff.mp h

/-- `utm_source` is also called a channel, and comes behind the dimension of that name. -/
def channels : Catalogue.Content where
  dimensionAliases := (Dict.empty.set "Channel" ["medium"]).set "utm_source" [" channel ", "campaign source"]

theorem aliasIndex_names_channels :
    (aliasIndex asciiScope channels).get? "utm source".toList = some "utm_source" ∧
      (aliasIndex asciiScope channels).get? "channel".toList ≠ some "Channel" := by
  have hfirst := @aliasIndex_names_iff asciiScope channels [] [_] ("Channel", ["medium"]) rfl
  have hlast := @aliasIndex_names_iff asciiScope channels [_] [] ("utm_source", [" channel ", "campaign source"]) rfl
  exact ⟨hlast.mpr (by decide +kernel), mt hfirst.mp (by decide +kernel)⟩

def sourceAliases : Dict (List Char) String :=
  ((Dict.empty.set "source".toList "source_name").set "order source".toList "source_name").set "vendor".toList "vendor"

example : (buildRequiredScope asciiScope sourceAliases ["source_name", "vendor", "lt_platform"]
    "orders by source last 5 days".toList).breakdowns = [["source_name"]] := by decide +kernel

end SelericSwarm.Scope
