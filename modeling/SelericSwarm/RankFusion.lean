import SelericSwarm.Search
import Mathlib.Algebra.BigOperators.Group.List.Basic
import Mathlib.Algebra.Order.Field.Rat
import Mathlib.Data.Prod.Lex
import Mathlib.Tactic.Linarith

/-! `reciprocal_rank_fusion` over exact numbers, for any weights and any constant, and what it is defined as. -/
open List Option

namespace SelericSwarm
open Keyed

/-- Numbers without rounding. -/
def exactFloats : Floats ℚ where
  literal := id
  add := (· + ·)
  div := (· / ·)
  lt a b := a < b
  eq a b := a = b

/-- One item of a ranked list, and its rank there. -/
structure RankedItem where
  ranking : Ranking
  item : SearchResult ℚ
  rank : Nat

namespace RankFusion
variable (k : Nat) (weight : Ranking → ℚ)

def share (ranking : Ranking) (rank : Nat) : ℚ := weight ranking / ((k + rank : Nat) : ℚ)

/-- The body of the loop. -/
def add (fused : Fused ℚ) (entry : RankedItem) : Fused ℚ where
  items := fused.items.set entry.item.key
    ((fused.items.getD entry.item.key entry.item).ranked entry.ranking entry.rank)
  scores := fused.scores.set entry.item.key
    (fused.scores.getD entry.item.key 0 + share k weight entry.ranking entry.rank)

/-- `enumerate(items, 1)`. -/
def enumerated (ranking : Ranking) (items : List (SearchResult ℚ)) : List RankedItem :=
  (items.zipIdx 1).map fun entry => ⟨ranking, entry.1, entry.2⟩

def fuse (lists : Ranking → List (SearchResult ℚ)) : Fused ℚ :=
  (enumerated .recency (lists .recency)).foldl (add k weight) <|
    (enumerated .vector (lists .vector)).foldl (add k weight) <|
      (enumerated .lexical (lists .lexical)).foldl (add k weight) {}

def sortKey (item : SearchResult ℚ) : ℚ ×ₗ Moment := toLex (item.score, item.createdAt)

def reciprocalRankFusion (lists : Ranking → List (SearchResult ℚ)) : List (SearchResult ℚ) :=
  let fused := fuse k weight lists
  (fused.items.rows.map fun entry => { entry.2 with score := fused.scores.getD entry.1 0 }).insertionSort
    fun a b => sortKey b ≤ sortKey a

end RankFusion

open RankFusion

theorem reciprocalRankFusion_exact (lexical vector recency : List (SearchResult ℚ)) :
    SelericSwarm.reciprocalRankFusion exactFloats lexical vector recency =
      RankFusion.reciprocalRankFusion 60 Ranking.weight
        fun | .lexical => lexical | .vector => vector | .recency => recency := by
  have haddAll (fused : Fused ℚ) (ranking : Ranking) (items : List (SearchResult ℚ)) :
      fused.addAll exactFloats ranking items = (RankFusion.enumerated ranking items).foldl (add 60 Ranking.weight) fused := by
    rw [Fused.addAll, RankFusion.enumerated, foldl_map]
    rfl
  have hbelow (a b : SearchResult ℚ) : a.notBelow exactFloats b = true ↔ sortKey b ≤ sortKey a := by
    simp [SearchResult.notBelow, exactFloats, sortKey, Prod.Lex.toLex_le_toLex]
  simp only [SelericSwarm.reciprocalRankFusion, RankFusion.reciprocalRankFusion, haddAll, hbelow]
  rfl

namespace RankFusion
variable {k : Nat} {weight : Ranking → ℚ}

/-! The two dictionaries, after any sequence of ranked items. -/

def SameKey (key : SearchKey) (entry : RankedItem) : Bool := entry.item.key = key

theorem key_ranked (item : SearchResult ℚ) (ranking : Ranking) (rank : Nat) :
    (item.ranked ranking rank).key = item.key := by
  cases ranking <;> rfl

def merged : List RankedItem → Option (SearchResult ℚ)
  | [] => none
  | first :: rest =>
    some ((first :: rest).foldl (fun item entry => item.ranked entry.ranking entry.rank) first.item)

theorem merged_concat (own : List RankedItem) (entry : RankedItem) :
    merged (own ++ [entry]) = some (((merged own).getD entry.item).ranked entry.ranking entry.rank) := by
  cases own with
  | nil => rfl
  | cons first rest => simp [merged, foldl_append]

variable (k weight) in
/-- What the dictionaries hold for a key comes from the items of that key. -/
structure Describes (entries : List RankedItem) (fused : Fused ℚ) : Prop where
  items : ∀ key, fused.items.get? key = merged (entries.filter (SameKey key))
  scores : ∀ key, fused.scores.getD key 0 =
    ((entries.filter (SameKey key)).map fun entry => share k weight entry.ranking entry.rank).sum

theorem Describes.add {entries : List RankedItem} {fused : Fused ℚ} (h : Describes k weight entries fused)
    (entry : RankedItem) : Describes k weight (entries ++ [entry]) (add k weight fused entry) where
  items key := by
    rw [RankFusion.add, Dict.get?_set, filter_append]
    by_cases hkey : entry.item.key = key
    · have hown : [entry].filter (SameKey key) = [entry] := filter_eq_self.mpr (by simp [SameKey, hkey])
      rw [if_pos hkey, hown, merged_concat, Dict.getD, h.items, hkey]
    · have hother : [entry].filter (SameKey key) = [] := by simp [SameKey, hkey]
      rw [if_neg hkey, hother, append_nil, h.items]
  scores key := by
    rw [RankFusion.add, Dict.getD_set, filter_append]
    by_cases hkey : entry.item.key = key
    · have hown : [entry].filter (SameKey key) = [entry] := filter_eq_self.mpr (by simp [SameKey, hkey])
      rw [if_pos hkey, hown, map_append, sum_append, h.scores, hkey]
      simp
    · have hother : [entry].filter (SameKey key) = [] := by simp [SameKey, hkey]
      rw [if_neg hkey, hother, append_nil, h.scores]

theorem Describes.foldl (entries : List RankedItem) : ∀ {before : List RankedItem} {fused : Fused ℚ},
    Describes k weight before fused →
      Describes k weight (before ++ entries) (entries.foldl (RankFusion.add k weight) fused) := by
  induction entries with
  | nil =>
    intro before fused h
    rw [append_nil]
    exact h
  | cons entry entries ih =>
    intro before fused h
    rw [append_cons]
    exact ih (h.add entry)

theorem describes_fuse (lists : Ranking → List (SearchResult ℚ)) :
    Describes k weight (enumerated .lexical (lists .lexical) ++ enumerated .vector (lists .vector) ++
      enumerated .recency (lists .recency)) (fuse k weight lists) := by
  have hstart : Describes k weight [] {} := ⟨fun _ => rfl, fun _ => rfl⟩
  exact ((hstart.foldl _).foldl _).foldl _

/-! A key in one list. -/

section OneList
variable {items : List (SearchResult ℚ)} {key : SearchKey}

/-- Its position in the list, counted from 1. -/
def rankIn (items : List (SearchResult ℚ)) (key : SearchKey) : Option Nat :=
  (items.findIdx? fun item => item.key = key).map (· + 1)

def copyIn (items : List (SearchResult ℚ)) (key : SearchKey) : Option (SearchResult ℚ) :=
  items.find? fun item => item.key = key

theorem filter_zipIdx (h : (items.map SearchResult.key).Nodup) : ∀ n : Nat,
    (items.zipIdx n).filter (fun entry => entry.1.key = key) =
      ((copyIn items key).bind fun item => (items.findIdx? fun item => item.key = key).map fun i =>
        (item, n + i)).toList := by
  induction items with
  | nil => exact fun _ => rfl
  | cons item items ih =>
    intro n
    obtain ⟨hnew, hnodup⟩ := nodup_cons.mp h
    rw [zipIdx_cons, filter_cons, ih hnodup, copyIn, copyIn, List.find?_cons, List.findIdx?_cons]
    by_cases hkey : item.key = key
    · have hnone : items.find? (fun item => item.key = key) = none := by
        rw [List.find?_eq_none]
        intro other hother
        have hne : other.key ≠ key := fun heq => hnew (hkey ▸ heq ▸ List.mem_map_of_mem hother)
        simpa using hne
      simp [hkey, hnone]
    · cases hfound : items.findIdx? fun item => item.key = key with
      | none => simp [hkey]
      | some i =>
        have hshift : n + 1 + i = n + (i + 1) := by omega
        simp [hkey, hshift]

theorem filter_enumerated (h : (items.map SearchResult.key).Nodup) (ranking : Ranking) :
    (enumerated ranking items).filter (SameKey key) =
      ((copyIn items key).bind fun item => (rankIn items key).map fun rank => ⟨ranking, item, rank⟩).toList := by
  have hfilter := @filter_zipIdx items key h 1
  rw [enumerated, List.filter_map]
  change List.map _ ((items.zipIdx 1).filter fun entry => entry.1.key = key) = _
  rw [hfilter, rankIn]
  cases copyIn items key with
  | none => rfl
  | some item =>
    cases items.findIdx? fun item => item.key = key with
    | none => rfl
    | some i => simp [Nat.add_comm]

theorem key_of_copyIn {item : SearchResult ℚ} (h : copyIn items key = some item) : item.key = key := by
  simpa using List.find?_some h

theorem found_cases (items : List (SearchResult ℚ)) (key : SearchKey) :
    copyIn items key = none ∧ rankIn items key = none ∧ key ∉ items.map SearchResult.key ∨
      ∃ item rank, copyIn items key = some item ∧ rankIn items key = some rank ∧ key ∈ items.map SearchResult.key := by
  by_cases hmem : key ∈ items.map SearchResult.key
  · obtain ⟨item, hitem, hkey⟩ := List.mem_map.mp hmem
    have hcopy : (copyIn items key).isSome := List.find?_isSome.mpr ⟨item, hitem, decide_eq_true hkey⟩
    have hrank : (rankIn items key).isSome := by
      rw [rankIn, isSome_map, List.findIdx?_isSome]
      exact List.any_eq_true.mpr ⟨item, hitem, decide_eq_true hkey⟩
    obtain ⟨copy, hcopy⟩ := isSome_iff_exists.mp hcopy
    obtain ⟨rank, hrank⟩ := isSome_iff_exists.mp hrank
    exact Or.inr ⟨copy, rank, hcopy, hrank, hmem⟩
  · have hne : ∀ item ∈ items, ¬decide (item.key = key) = true := by
      intro item hitem hkey
      exact hmem (List.mem_map.mpr ⟨item, hitem, of_decide_eq_true hkey⟩)
    refine Or.inl ⟨List.find?_eq_none.mpr hne, ?_, hmem⟩
    rw [rankIn, List.findIdx?_eq_none_iff.mpr fun item hitem => by simpa using hne item hitem]
    rfl

end OneList

/-! What the fusion is defined as. -/

def rankOf (item : SearchResult ℚ) : Ranking → Option Nat
  | .lexical => item.lexicalRank
  | .vector => item.vectorRank
  | .recency => item.recencyRank

def rankedBy (item : SearchResult ℚ) (ranking : Ranking) (rank : Option Nat) : SearchResult ℚ :=
  rank.elim item (item.ranked ranking)

section Definition
variable (k weight) (lists : Ranking → List (SearchResult ℚ)) (key : SearchKey)

def firstCopy : Option (SearchResult ℚ) :=
  ((copyIn (lists .lexical) key).or (copyIn (lists .vector) key)).or (copyIn (lists .recency) key)

def allRanked (first : SearchResult ℚ) : SearchResult ℚ :=
  rankedBy (rankedBy (rankedBy first .lexical (rankIn (lists .lexical) key)) .vector (rankIn (lists .vector) key))
    .recency (rankIn (lists .recency) key)

def part (ranking : Ranking) : ℚ := (rankIn (lists ranking) key).elim 0 (share k weight ranking)

/-- The sum over the lists that contain the key. -/
def fusedScore : ℚ := ([.lexical, .vector, .recency].map (part k weight lists key)).sum

/-- Each key of the lists once, with the sum of its shares, its positions and otherwise its first copy, the highest
score first. -/
structure Fuses (output : List (SearchResult ℚ)) : Prop where
  once : (output.map SearchResult.key).Nodup
  union : ∀ key, key ∈ output.map SearchResult.key ↔ ∃ ranking, key ∈ (lists ranking).map SearchResult.key
  score : ∀ a ∈ output, a.score = fusedScore k weight lists a.key
  ranks : ∀ a ∈ output, ∀ ranking rank, rankIn (lists ranking) a.key = some rank → rankOf a ranking = some rank
  copy : ∀ a ∈ output, ∃ first, firstCopy lists a.key = some first ∧
    a = { allRanked lists a.key first with score := a.score }
  sorted : output.Pairwise fun a b => b.score < a.score ∨ b.score = a.score ∧ b.createdAt ≤ a.createdAt

end Definition

section Lists
variable {lists : Ranking → List (SearchResult ℚ)} (h : ∀ ranking, ((lists ranking).map SearchResult.key).Nodup)
include h

theorem filter_entries (key : SearchKey) :
    (enumerated .lexical (lists .lexical) ++ enumerated .vector (lists .vector) ++
      enumerated .recency (lists .recency)).filter (SameKey key) =
    ([.lexical, .vector, .recency].map fun ranking => ((copyIn (lists ranking) key).bind fun item =>
      (rankIn (lists ranking) key).map fun rank => (⟨ranking, item, rank⟩ : RankedItem)).toList).flatten := by
  rw [filter_append, filter_append, filter_enumerated (h .lexical), filter_enumerated (h .vector),
    filter_enumerated (h .recency)]
  simp

theorem items_fuse (key : SearchKey) :
    (fuse k weight lists).items.get? key = (firstCopy lists key).map (allRanked lists key) := by
  rw [(describes_fuse lists).items, filter_entries h, firstCopy]
  unfold allRanked
  obtain ⟨hl, hl', -⟩ | ⟨_, _, hl, hl', -⟩ := found_cases (lists .lexical) key <;>
    obtain ⟨hv, hv', -⟩ | ⟨_, _, hv, hv', -⟩ := found_cases (lists .vector) key <;>
    obtain ⟨hr, hr', -⟩ | ⟨_, _, hr, hr', -⟩ := found_cases (lists .recency) key <;>
    simp only [map_cons, map_nil, hl, hl', hv, hv', hr, hr'] <;> rfl

theorem scores_fuse (key : SearchKey) : (fuse k weight lists).scores.getD key 0 = fusedScore k weight lists key := by
  rw [(describes_fuse lists).scores, filter_entries h, fusedScore, map_flatten, sum_flatten, List.map_map,
    List.map_map]
  congr 1
  refine map_congr_left fun ranking _ => ?_
  simp only [Function.comp_apply, part]
  obtain ⟨hcopy, hrank, -⟩ | ⟨item, rank, hcopy, hrank, -⟩ := found_cases (lists ranking) key
  · rw [hcopy, hrank]
    rfl
  · rw [hcopy, hrank]
    simp

theorem mem_fuse {entry : SearchKey × SearchResult ℚ} (hentry : entry ∈ (fuse k weight lists).items.rows) :
    ∃ first, firstCopy lists entry.1 = some first ∧ entry.2 = allRanked lists entry.1 first ∧ entry.2.key = entry.1 := by
  have hget : (fuse k weight lists).items.get? entry.1 = some entry.2 := by
    rw [Dict.get?, Table.get?_of_mem hentry]
    rfl
  rw [items_fuse h] at hget
  obtain ⟨first, hfirst, hitem⟩ := map_eq_some_iff.mp hget
  refine ⟨first, hfirst, hitem.symm, ?_⟩
  have hranked (item : SearchResult ℚ) (ranking : Ranking) (rank : Option Nat) :
      (rankedBy item ranking rank).key = item.key := by
    cases rank with
    | none => rfl
    | some rank => exact key_ranked item ranking rank
  have hkey : first.key = entry.1 := by
    rw [firstCopy, or_eq_some_iff, or_eq_some_iff] at hfirst
    obtain (hcopy | ⟨-, hcopy⟩) | ⟨-, hcopy⟩ := hfirst <;> exact key_of_copyIn hcopy
  rw [← hitem, allRanked, hranked, hranked, hranked, hkey]

omit h in
theorem rankOf_allRanked (key : SearchKey) (first : SearchResult ℚ) (ranking : Ranking) {rank : Nat}
    (hrank : rankIn (lists ranking) key = some rank) : rankOf (allRanked lists key first) ranking = some rank := by
  unfold allRanked
  cases ranking with
  | recency =>
    rw [hrank]
    rfl
  | vector =>
    rw [hrank]
    cases rankIn (lists .recency) key <;> rfl
  | lexical =>
    rw [hrank]
    cases rankIn (lists .vector) key <;> cases rankIn (lists .recency) key <;> rfl

theorem reciprocalRankFusion_fuses : Fuses k weight lists (reciprocalRankFusion k weight lists) := by
  have hkey : ∀ entry ∈ (fuse k weight lists).items.rows, entry.2.key = entry.1 := by
    intro entry hentry
    obtain ⟨first, -, -, hkey⟩ := mem_fuse h hentry
    exact hkey
  have hperm : (reciprocalRankFusion k weight lists).Perm ((fuse k weight lists).items.rows.map fun entry =>
      { entry.2 with score := (fuse k weight lists).scores.getD entry.1 0 }) := perm_insertionSort _ _
  have hkeys : ((reciprocalRankFusion k weight lists).map SearchResult.key).Perm
      ((fuse k weight lists).items.rows.map Prod.fst) := by
    refine (hperm.map _).trans (Perm.of_eq ?_)
    rw [List.map_map]
    exact map_congr_left hkey
  have hmem : ∀ a ∈ reciprocalRankFusion k weight lists, ∃ first, firstCopy lists a.key = some first ∧
      a = { allRanked lists a.key first with score := fusedScore k weight lists a.key } := by
    intro a ha
    obtain ⟨entry, hentry, rfl⟩ := List.mem_map.mp (hperm.mem_iff.mp ha)
    obtain ⟨first, hfirst, hitem, -⟩ := mem_fuse h hentry
    have hown : ({ entry.2 with score := (fuse k weight lists).scores.getD entry.1 0 } : SearchResult ℚ).key = entry.1 :=
      hkey entry hentry
    rw [hown, scores_fuse h, hitem]
    exact ⟨first, hfirst, rfl⟩
  refine ⟨hkeys.nodup_iff.mpr (fuse k weight lists).items.nodup, fun key => ?_, fun a ha => ?_, fun a ha ranking rank hrank => ?_,
    fun a ha => ?_, ?_⟩
  · rw [hkeys.mem_iff, ← Table.get?_isSome_iff]
    have hget : (Table.get? (fuse k weight lists).items key).isSome = ((firstCopy lists key).map (allRanked lists key)).isSome := by
      have hitems : (fuse k weight lists).items.get? key = _ := items_fuse h key
      rw [← hitems, Dict.get?, isSome_map]
    rw [hget, isSome_map, firstCopy, isSome_or, isSome_or, Bool.or_eq_true, Bool.or_eq_true]
    have hin (ranking : Ranking) : (copyIn (lists ranking) key).isSome ↔ key ∈ (lists ranking).map SearchResult.key := by
      obtain ⟨hcopy, -, hmem⟩ | ⟨item, rank, hcopy, -, hmem⟩ := found_cases (lists ranking) key
      · simp [hcopy, hmem]
      · simp only [hcopy, isSome_some, hmem]
    rw [hin, hin, hin]
    constructor
    · rintro ((hkey | hkey) | hkey)
      · exact ⟨.lexical, hkey⟩
      · exact ⟨.vector, hkey⟩
      · exact ⟨.recency, hkey⟩
    · rintro ⟨ranking, hkey⟩
      cases ranking with
      | lexical => exact Or.inl (Or.inl hkey)
      | vector => exact Or.inl (Or.inr hkey)
      | recency => exact Or.inr hkey
  · obtain ⟨first, -, ha⟩ := hmem a ha
    exact congrArg SearchResult.score ha
  · obtain ⟨first, -, ha⟩ := hmem a ha
    have hfirst := rankOf_allRanked a.key first ranking hrank
    rw [ha]
    cases ranking <;> exact hfirst
  · obtain ⟨first, hfirst, ha⟩ := hmem a ha
    refine ⟨first, hfirst, ?_⟩
    have hscore : a.score = fusedScore k weight lists a.key := congrArg SearchResult.score ha
    rw [hscore]
    exact ha
  · have hsorted : (reciprocalRankFusion k weight lists).Pairwise fun a b => sortKey b ≤ sortKey a :=
      pairwise_insertionSort _ _
    exact hsorted.imp fun hab => Prod.Lex.toLex_le_toLex.mp hab

end Lists

/-! An item that moves up. -/

/-- `item` before `passed` in the list of the ranking. -/
def movedUp (lists : Ranking → List (SearchResult ℚ)) (ranking : Ranking) (front passed : List (SearchResult ℚ))
    (item : SearchResult ℚ) (rear : List (SearchResult ℚ)) : Ranking → List (SearchResult ℚ) :=
  Function.update lists ranking (front ++ item :: (passed ++ rear))

theorem share_le (hweight : ∀ ranking, 0 < weight ranking) (ranking : Ranking) {rank rank' : Nat} (hrank : 0 < rank)
    (hle : rank ≤ rank') : share k weight ranking rank' ≤ share k weight ranking rank := by
  have hpos : (0 : ℚ) < ((k + rank : Nat) : ℚ) := by exact_mod_cast Nat.lt_of_lt_of_le hrank (Nat.le_add_left rank k)
  have hsum : ((k + rank : Nat) : ℚ) ≤ ((k + rank' : Nat) : ℚ) := by exact_mod_cast Nat.add_le_add_left hle k
  exact div_le_div_of_nonneg_left (hweight ranking).le hpos hsum

variable {front rear : List (SearchResult ℚ)} {item : SearchResult ℚ}

theorem rankIn_append_cons (h : ((front ++ item :: rear).map SearchResult.key).Nodup) :
    rankIn (front ++ item :: rear) item.key = some (front.length + 1) := by
  rw [map_append, nodup_append] at h
  have hfront : front.findIdx? (fun other => other.key = item.key) = none := by
    rw [List.findIdx?_eq_none_iff]
    intro other hother
    exact decide_eq_false (h.2.2 _ (List.mem_map_of_mem hother) _ mem_cons_self)
  rw [rankIn, List.findIdx?_append, hfront, List.findIdx?_cons]
  simp

theorem movedUp_perm {lists : Ranking → List (SearchResult ℚ)} {ranking : Ranking} {passed : List (SearchResult ℚ)}
    (hlist : lists ranking = front ++ (passed ++ item :: rear)) (other : Ranking) :
    (movedUp lists ranking front passed item rear other).Perm (lists other) := by
  by_cases hother : other = ranking
  · subst hother
    rw [movedUp, Function.update_self, hlist]
    exact (perm_middle.symm).append_left front
  · rw [movedUp, Function.update_of_ne hother]

theorem fusedScore_le_movedUp {lists : Ranking → List (SearchResult ℚ)}
    (h : ∀ ranking, ((lists ranking).map SearchResult.key).Nodup) (hweight : ∀ ranking, 0 < weight ranking)
    {ranking : Ranking} {passed : List (SearchResult ℚ)} (hlist : lists ranking = front ++ (passed ++ item :: rear)) :
    fusedScore k weight lists item.key ≤ fusedScore k weight (movedUp lists ranking front passed item rear) item.key := by
  have hmoved := ((movedUp_perm hlist ranking).map SearchResult.key).nodup_iff.mpr (h ranking)
  have hpart : ∀ other, part k weight lists item.key other ≤
      part k weight (movedUp lists ranking front passed item rear) item.key other := by
    intro other
    by_cases hother : other = ranking
    · subst hother
      have hnodup := h other
      rw [movedUp, Function.update_self] at hmoved
      rw [hlist, ← append_assoc] at hnodup
      rw [part, part, movedUp, Function.update_self, hlist, ← append_assoc, rankIn_append_cons hnodup,
        rankIn_append_cons hmoved]
      refine share_le hweight other (Nat.succ_pos _) ?_
      rw [length_append]
      omega
    · rw [part, part, movedUp, Function.update_of_ne hother]
  have hl := hpart .lexical
  have hv := hpart .vector
  have hr := hpart .recency
  simp only [fusedScore, map_cons, map_nil, sum_cons, sum_nil]
  linarith

/-- Reciprocal rank fusion is what it is defined as, and an item that moves up in a list does not lose by it. -/
theorem reciprocal_rank_fusion_exact (k : Nat) (weight : Ranking → ℚ) (lists : Ranking → List (SearchResult ℚ))
    (h : ∀ ranking, ((lists ranking).map SearchResult.key).Nodup) :
    Fuses k weight lists (reciprocalRankFusion k weight lists) ∧
      ((∀ ranking, 0 < weight ranking) → ∀ ranking front passed item rear,
        lists ranking = front ++ (passed ++ item :: rear) →
        ∀ a ∈ reciprocalRankFusion k weight lists,
        ∀ b ∈ reciprocalRankFusion k weight (movedUp lists ranking front passed item rear),
          a.key = item.key → b.key = item.key → a.score ≤ b.score) := by
  refine ⟨reciprocalRankFusion_fuses h, fun hweight ranking front passed item rear hlist a ha b hb hakey hbkey => ?_⟩
  have hmoved : ∀ other, ((movedUp lists ranking front passed item rear other).map SearchResult.key).Nodup := fun other =>
    ((movedUp_perm hlist other).map SearchResult.key).nodup_iff.mpr (h other)
  have hscore := (reciprocalRankFusion_fuses (k := k) h).score a ha
  have hscore' := (reciprocalRankFusion_fuses (k := k) hmoved).score b hb
  rw [hscore, hscore', hakey, hbkey]
  exact fusedScore_le_movedUp h hweight hlist

/-- A thread that two lists have, behind a message in one of them. -/
def sampleLists : Ranking → List (SearchResult ℚ)
  | .lexical => [
      { id := "m", kind := .message, title := "", score := 0, createdAt := 1 },
      { id := "t", kind := .thread, title := "", score := 0, createdAt := 2 }]
  | .vector => [{ id := "t", kind := .thread, title := "", score := 0, createdAt := 2 }]
  | .recency => []

/-- The thread moves before the message. -/
theorem reciprocal_rank_fusion_exact_sampleLists :
    Fuses 60 Ranking.weight sampleLists (reciprocalRankFusion 60 Ranking.weight sampleLists) ∧
      ∀ a ∈ reciprocalRankFusion 60 Ranking.weight sampleLists,
      ∀ b ∈ reciprocalRankFusion 60 Ranking.weight (movedUp sampleLists .lexical [] ((sampleLists .lexical).take 1)
          { id := "t", kind := .thread, title := "", score := 0, createdAt := 2 } []),
        a.key = (.thread, "t") → b.key = (.thread, "t") → a.score ≤ b.score := by
  have hnodup : ∀ ranking, ((sampleLists ranking).map SearchResult.key).Nodup := by
    intro ranking
    cases ranking <;> decide
  have hweight : ∀ ranking : Ranking, 0 < ranking.weight := by
    intro ranking
    cases ranking <;> decide +kernel
  obtain ⟨hfuses, hmoved⟩ := reciprocal_rank_fusion_exact 60 Ranking.weight sampleLists hnodup
  exact ⟨hfuses, hmoved hweight .lexical [] _ _ [] rfl⟩

end RankFusion
end SelericSwarm
