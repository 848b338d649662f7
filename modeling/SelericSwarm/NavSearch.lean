import SelericSwarm.BestFirst
import SelericSwarm.NavMesh

/-! The loop of `findPath` as a best-first search over the open tiles. -/
namespace SelericSwarm.NavMesh
open Keyed BestFirst List Option
variable {assets : Option Collisions} {start goal t u : Tile} {cur n m : Node} {s : Search} {k : Int}

def Open (assets : Option Collisions) (t : Tile) : Prop := blockedAt assets t = false

instance (assets : Option Collisions) (t : Tile) : Decidable (Open assets t) := inferInstanceAs (Decidable (_ = _))

/-- One move, onto an open tile. -/
def Adj (assets : Option Collisions) (t u : Tile) : Prop := Open assets u ∧ ∃ d ∈ neighbours, u = t + d

theorem inMap_iff : inMap t = true ↔ 0 ≤ t.1 ∧ 0 ≤ t.2 ∧ t.1 < 25 ∧ t.2 < 25 := by
  simp only [inMap, Bool.and_eq_true, decide_eq_true_eq, and_assoc]
  rfl

theorem Open.inMap (h : Open assets t) : inMap t = true := by
  unfold Open blockedAt at h
  cases assets with
  | none =>
    simp only [Bool.or_eq_false_iff, decide_eq_false_iff_not] at h
    have hwidth : ((mapWidth : Nat) : Int) = 25 := rfl
    have hheight : ((mapHeight : Nat) : Int) = 25 := rfl
    rw [inMap_iff]
    omega
  | some blocked =>
    simp only [tileBlocked] at h
    split at h
    · assumption
    · cases h

theorem key_inj (ht : inMap t = true) (hu : inMap u = true) (h : key t = key u) : t = u := by
  rw [inMap_iff] at ht hu
  simp only [key, mapWidth] at h
  exact Prod.ext (by omega) (by omega)

theorem key_range (ht : inMap t = true) : 0 ≤ key t ∧ key t < 625 := by
  rw [inMap_iff] at ht
  simp only [key, mapWidth]
  omega

theorem key_ne (ht : inMap t = true) : key t ≠ -1 := by
  have := key_range ht
  omega

/-- A move changes the Manhattan distance by one. -/
theorem estimate_consistent (assets : Option Collisions) (goal : Tile) : Consistent (Adj assets) (estimate goal) := by
  rintro t u ⟨-, d, hd, rfl⟩
  simp only [neighbours, mem_cons, not_mem_nil, or_false] at hd
  obtain rfl | rfl | rfl | rfl := hd
  all_goals
    simp only [estimate, Prod.fst_add, Prod.snd_add]
    omega

/-! The nodes. -/

/-- What the search has on record. -/
structure Linked (assets : Option Collisions) (start goal : Tile) (s : Search) : Prop where
  node : ∀ k n, s.all.get? k = some n → k = key n.tile ∧ Open assets n.tile ∧ n.f = n.g + estimate goal n.tile
  opened : ∀ k, s.opened.get? k = if k ∈ s.closed then none else s.all.get? k
  seen : ∀ k ∈ s.closed, ∃ n, s.all.get? k = some n
  parent : ∀ k n, s.all.get? k = some n → (n.parent = -1 ∧ n.tile = start ∧ n.g = 0) ∨
    ∃ m, s.all.get? n.parent = some m ∧ n.parent ∈ s.closed ∧ n.g = m.g + 1 ∧ Adj assets m.tile n.tile
  nodup : s.closed.Nodup

def toSearch (assets : Option Collisions) (s : Search) : BestFirst.Search Tile where
  cost t := (s.all.get? (key t)).bind fun n => if n.tile = t then some n.g else none
  closed := {t | Open assets t ∧ key t ∈ s.closed}

theorem cost_eq_some {g : Nat} :
    (toSearch assets s).cost t = some g ↔ ∃ n, s.all.get? (key t) = some n ∧ n.tile = t ∧ n.g = g := by
  simp only [toSearch, bind_eq_some_iff, ite_none_right_eq_some, Option.some.injEq]

theorem initial_linked (hopen : Open assets start) : Linked assets start goal (initial start goal) := by
  have hget : ∀ k n, (initial start goal).all.get? k = some n → k = key start ∧ n = startNode start goal := by
    intro k n h
    simp only [initial, Dict.get?_set, Dict.get?_empty] at h
    split at h
    · next hk => exact ⟨hk.symm, (Option.some.inj h).symm⟩
    · cases h
  refine ⟨?_, ?_, ?_, ?_, nodup_nil⟩
  · intro k n h
    obtain ⟨rfl, rfl⟩ := hget k n h
    exact ⟨rfl, hopen, (Nat.zero_add _).symm⟩
  · intro k
    rfl
  · intro k hk
    exact absurd hk not_mem_nil
  · intro k n h
    obtain ⟨-, rfl⟩ := hget k n h
    exact Or.inl ⟨rfl, rfl, rfl⟩

theorem initial_sound (hopen : Open assets start) : Sound (Adj assets) start (toSearch assets (initial start goal)) := by
  have hcost : ∀ t g, (toSearch assets (initial start goal)).cost t = some g → t = start ∧ g = 0 := by
    intro t g h
    obtain ⟨n, hn, ht, hg⟩ := cost_eq_some.mp h
    simp only [initial, Dict.get?_set, Dict.get?_empty] at hn
    split at hn
    · cases hn
      exact ⟨ht.symm, hg.symm⟩
    · cases hn
  refine ⟨?_, ?_, ?_, ?_, ?_⟩
  · exact cost_eq_some.mpr ⟨startNode start goal, Dict.get?_set_self _ _ _, rfl, rfl⟩
  · intro t g h
    obtain ⟨rfl, rfl⟩ := hcost t g h
    exact .nil
  · rintro t ⟨-, hk⟩
    exact absurd hk not_mem_nil
  · rintro t ⟨-, hk⟩
    exact absurd hk not_mem_nil
  · rintro t ⟨-, hk⟩
    exact absurd hk not_mem_nil

/-! One turn. -/

theorem cheaper_eq (c : Option Node) (n : Node) : ∃ m, cheaper c n = some m ∧ (m = n ∨ c = some m) ∧ m.f ≤ n.f ∧
    ∀ b, c = some b → m.f ≤ b.f := by
  cases c with
  | none => exact ⟨n, rfl, Or.inl rfl, Nat.le_refl _, fun b hb => by cases hb⟩
  | some b =>
    by_cases hlt : n.f < b.f
    · exact ⟨n, if_pos hlt, Or.inl rfl, Nat.le_refl _, fun b' hb => by cases hb; omega⟩
    · exact ⟨b, if_neg hlt, Or.inr rfl, by omega, fun b' hb => by cases hb; omega⟩

theorem foldl_cheaper (nodes : List Node) : ∀ {c : Option Node}, nodes.foldl cheaper c = some cur →
    (c = some cur ∨ cur ∈ nodes) ∧ (∀ n ∈ nodes, cur.f ≤ n.f) ∧ ∀ b, c = some b → cur.f ≤ b.f := by
  induction nodes with
  | nil =>
    intro c h
    exact ⟨Or.inl h, by simp, fun b hb => by rw [Option.some.inj (hb.symm.trans h)]⟩
  | cons n nodes ih =>
    intro c h
    obtain ⟨m, hm, hfrom, hle, hold⟩ := cheaper_eq c n
    rw [foldl_cons, hm] at h
    obtain ⟨hmem, hall, hfirst⟩ := ih h
    have hbound := hfirst m rfl
    refine ⟨?_, ?_, fun b hb => hbound.trans (hold b hb)⟩
    · obtain hsome | hin := hmem
      · obtain rfl := Option.some.inj hsome
        obtain rfl | hc := hfrom
        · exact Or.inr mem_cons_self
        · exact Or.inl hc
      · exact Or.inr (mem_cons_of_mem n hin)
    · intro n' hn'
      obtain rfl | hin := mem_cons.mp hn'
      · exact hbound.trans hle
      · exact hall n' hin

theorem cheapest_eq_some {nodes : List Node} (h : cheapest nodes = some cur) : cur ∈ nodes ∧ ∀ n ∈ nodes, cur.f ≤ n.f := by
  obtain ⟨hmem, hall, -⟩ := foldl_cheaper nodes h
  exact ⟨hmem.resolve_left (by simp), hall⟩

theorem cheapest_eq_none {nodes : List Node} (h : cheapest nodes = none) : nodes = [] := by
  cases nodes with
  | nil => rfl
  | cons n nodes =>
    have hsome : ∀ (ns : List Node) (c : Node), (ns.foldl cheaper (some c)).isSome = true := by
      intro ns
      induction ns with
      | nil => exact fun c => rfl
      | cons n' ns ih =>
        intro c
        obtain ⟨m, hm, -⟩ := cheaper_eq (some c) n'
        rw [foldl_cons, hm]
        exact ih m
    have hbad := hsome nodes n
    unfold cheapest at h
    rw [foldl_cons] at h
    change nodes.foldl cheaper (some n) = none at h
    rw [h] at hbad
    cases hbad

theorem mem_values {d : Dict Int Node} : n ∈ d.values ↔ ∃ k, d.get? k = some n := by
  simp only [Dict.values, List.mem_map]
  constructor
  · rintro ⟨row, hrow, rfl⟩
    have hget : Table.get? d row.1 = some row := Table.get?_of_mem hrow
    exact ⟨row.1, by rw [Dict.get?, hget]; rfl⟩
  · rintro ⟨k, hk⟩
    obtain ⟨row, hrow, rfl⟩ := map_eq_some_iff.mp hk
    exact ⟨row, Table.mem_of_get? hrow, rfl⟩

theorem mem_opened (hl : Linked assets start goal s) : n ∈ s.opened.values ↔
    key n.tile ∉ s.closed ∧ s.all.get? (key n.tile) = some n := by
  rw [mem_values]
  constructor
  · rintro ⟨k, hk⟩
    rw [hl.opened] at hk
    split at hk
    · cases hk
    · next hopen =>
      obtain ⟨rfl, -⟩ := hl.node k n hk
      exact ⟨hopen, hk⟩
  · rintro ⟨hopen, hget⟩
    exact ⟨key n.tile, by rw [hl.opened, if_neg hopen, hget]⟩

/-! Closing the cheapest node. -/

theorem settle_linked (hl : Linked assets start goal s) (hcur : s.all.get? (key cur.tile) = some cur)
    (hopen : key cur.tile ∉ s.closed) : Linked assets start goal (settle s cur) where
  node := hl.node
  opened k := by
    simp only [settle, Dict.get?_erase, mem_cons, hl.opened]
    by_cases hk : key cur.tile = k
    · simp [hk]
    · simp [hk, Ne.symm hk]
  seen k hk := by
    obtain rfl | hk := mem_cons.mp hk
    · exact ⟨cur, hcur⟩
    · exact hl.seen k hk
  parent k n hn := by
    obtain hfirst | ⟨m, hm, hclosed, hg, hadj⟩ := hl.parent k n hn
    · exact Or.inl hfirst
    · exact Or.inr ⟨m, hm, mem_cons_of_mem _ hclosed, hg, hadj⟩
  nodup := nodup_cons.mpr ⟨hopen, hl.nodup⟩

/-- Relaxing a neighbour that counts puts its node on record; any other leaves the search as it is. -/
theorem relax_cases (cur : Node) (hl : Linked assets start goal s) (d : Tile) :
    (Open assets (cur.tile + d) ∧ key (cur.tile + d) ∉ s.closed ∧
        (∀ ex, s.all.get? (key (cur.tile + d)) = some ex → cur.g + 1 < ex.g) ∧
        relax assets goal cur s d = { s with
          opened := s.opened.set (key (cur.tile + d)) (reached goal cur (cur.tile + d))
          all := s.all.set (key (cur.tile + d)) (reached goal cur (cur.tile + d)) }) ∨
      (relax assets goal cur s d = s ∧ (Open assets (cur.tile + d) → key (cur.tile + d) ∉ s.closed →
        ∃ ex, s.all.get? (key (cur.tile + d)) = some ex ∧ ex.g ≤ cur.g + 1)) := by
  unfold relax
  dsimp only
  split
  · next hout => exact Or.inr ⟨rfl, fun hopen => absurd hopen.inMap (by simpa using hout)⟩
  · split
    · next hblocked => exact Or.inr ⟨rfl, fun hopen => absurd (hopen.symm.trans hblocked) (by simp)⟩
    · next hfree =>
      split
      · next hclosed => exact Or.inr ⟨rfl, fun _ hfresh => absurd hclosed hfresh⟩
      · next hfresh =>
        have hget := hl.opened (key (cur.tile + d))
        rw [if_neg hfresh] at hget
        rw [hget]
        split
        · next hbetter =>
          refine Or.inl ⟨Bool.eq_false_of_not_eq_true hfree, hfresh, ?_, rfl⟩
          intro ex hex
          rw [hex] at hbetter
          exact of_decide_eq_true hbetter
        · next hworse =>
          refine Or.inr ⟨rfl, fun _ _ => ?_⟩
          cases hex : s.all.get? (key (cur.tile + d)) with
          | none =>
            rw [hex] at hworse
            exact absurd rfl hworse
          | some ex =>
            rw [hex, all_some, decide_eq_true_eq] at hworse
            exact ⟨ex, rfl, by omega⟩

theorem relax_fields (d : Tile) : (relax assets goal cur s d).closed = s.closed ∧ (relax assets goal cur s d).best = s.best := by
  unfold relax
  dsimp only
  split_ifs <;> exact ⟨rfl, rfl⟩

theorem relax_linked (hl : Linked assets start goal s) (hcur : s.all.get? (key cur.tile) = some cur)
    (hclosed : key cur.tile ∈ s.closed) {d : Tile} (hd : d ∈ neighbours) :
    Linked assets start goal (relax assets goal cur s d) := by
  obtain ⟨hopen, hfresh, -, heq⟩ | ⟨heq, -⟩ := relax_cases cur hl d
  · have hkeep : ∀ k ∈ s.closed, key (cur.tile + d) ≠ k := fun k hk he => hfresh (he ▸ hk)
    rw [heq]
    refine ⟨?_, ?_, ?_, ?_, hl.nodup⟩
    · intro k n hn
      rw [Dict.get?_set] at hn
      split at hn
      · next hk =>
        cases hn
        exact ⟨hk.symm, hopen, rfl⟩
      · exact hl.node k n hn
    · intro k
      rw [Dict.get?_set, Dict.get?_set, hl.opened]
      by_cases hk : key (cur.tile + d) = k
      · rw [if_pos hk, if_pos hk, if_neg (hk ▸ hfresh)]
      · rw [if_neg hk, if_neg hk]
    · intro k hk
      rw [Dict.get?_set, if_neg (hkeep k hk)]
      exact hl.seen k hk
    · intro k n hn
      rw [Dict.get?_set] at hn
      split at hn
      · cases hn
        refine Or.inr ⟨cur, ?_, hclosed, rfl, hopen, d, hd, rfl⟩
        change Dict.get? _ (key cur.tile) = some cur
        rw [Dict.get?_set, if_neg (hkeep _ hclosed), hcur]
      · obtain hfirst | ⟨m, hm, hparent, hg, hadj⟩ := hl.parent k n hn
        · exact Or.inl hfirst
        · refine Or.inr ⟨m, ?_, hparent, hg, hadj⟩
          rw [Dict.get?_set, if_neg (hkeep _ hparent), hm]
  · rw [heq]
    exact hl

theorem cost_of_node (hl : Linked assets start goal s) (hopen : Open assets t) (hn : s.all.get? (key t) = some n) :
    (toSearch assets s).cost t = some n.g := by
  obtain ⟨hkey, hopen', -⟩ := hl.node _ _ hn
  exact cost_eq_some.mpr ⟨n, hn, (key_inj hopen.inMap hopen'.inMap hkey).symm, rfl⟩

theorem cost_of_none (hn : s.all.get? (key t) = none) : (toSearch assets s).cost t = none := by
  simp only [toSearch, hn, bind_none]

theorem cost_of_key (hl : Linked assets start goal s) (hopen : Open assets t) (hkey : key u = key t) (hne : u ≠ t) :
    (toSearch assets s).cost u = none := by
  cases hn : s.all.get? (key u) with
  | none => exact cost_of_none hn
  | some n =>
    obtain ⟨hkey', hopen', -⟩ := hl.node _ _ hn
    have htile : n.tile = t := key_inj hopen'.inMap hopen.inMap (hkey'.symm.trans hkey)
    simp only [toSearch, hn, bind_some]
    rw [if_neg]
    rw [htile]
    exact Ne.symm hne

theorem relax_kept (hl : Linked assets start goal s) (d : Tile) (hk : k ∈ s.closed) :
    (relax assets goal cur s d).all.get? k = s.all.get? k := by
  obtain ⟨-, hfresh, -, heq⟩ | ⟨heq, -⟩ := relax_cases cur hl d
  · rw [heq]
    exact Dict.get?_set_of_ne _ _ fun he => hfresh (he ▸ hk)
  · rw [heq]

theorem add_inj {c d d' : Tile} (h : c + d = c + d') : d = d' := by
  have hfst := congrArg Prod.fst h
  have hsnd := congrArg Prod.snd h
  simp only [Prod.fst_add, Prod.snd_add] at hfst hsnd
  exact Prod.ext (by omega) (by omega)

theorem relax_cost (hl : Linked assets start goal s) (hcur : s.all.get? (key cur.tile) = some cur)
    (hclosed : key cur.tile ∈ s.closed) {d : Tile} (hd : d ∈ neighbours) (t : Tile) :
    (toSearch assets (relax assets goal cur s d)).cost t =
      if t = cur.tile + d ∧ Open assets t ∧ key t ∉ s.closed then some (relaxed ((toSearch assets s).cost t) (cur.g + 1))
      else (toSearch assets s).cost t := by
  have hlinked := relax_linked hl hcur hclosed hd
  obtain ⟨hopen, hfresh, hbetter, heq⟩ | ⟨heq, hworse⟩ := relax_cases cur hl d
  · by_cases ht : t = cur.tile + d
    · subst ht
      rw [if_pos ⟨rfl, hopen, hfresh⟩]
      have hnode : (relax assets goal cur s d).all.get? (key (cur.tile + d)) = some (reached goal cur (cur.tile + d)) := by
        rw [heq]
        exact Dict.get?_set_self _ _ _
      rw [cost_of_node hlinked hopen hnode]
      cases hex : s.all.get? (key (cur.tile + d)) with
      | none =>
        rw [cost_of_none hex]
        rfl
      | some ex =>
        rw [cost_of_node hl hopen hex]
        exact congrArg some (Nat.min_eq_left (hbetter ex hex).le).symm
    · rw [if_neg fun h => ht h.1]
      by_cases hk : key t = key (cur.tile + d)
      · rw [cost_of_key hl hopen hk ht, cost_of_key hlinked hopen hk ht]
      · simp only [toSearch, heq, Dict.get?_set, if_neg (Ne.symm hk)]
  · rw [heq]
    split
    · next h =>
      obtain ⟨rfl, hopen, hfresh⟩ := h
      obtain ⟨ex, hex, hle⟩ := hworse hopen hfresh
      rw [cost_of_node hl hopen hex]
      exact congrArg some (Nat.min_eq_right hle).symm
    · rfl

theorem foldl_relax (ds : List Tile) (hnodup : ds.Nodup) : ∀ {s : Search}, (∀ d ∈ ds, d ∈ neighbours) →
    Linked assets start goal s → s.all.get? (key cur.tile) = some cur → key cur.tile ∈ s.closed →
    Linked assets start goal (ds.foldl (relax assets goal cur) s) ∧
      (ds.foldl (relax assets goal cur) s).closed = s.closed ∧
      (ds.foldl (relax assets goal cur) s).best = s.best ∧
      (∀ k ∈ s.closed, (ds.foldl (relax assets goal cur) s).all.get? k = s.all.get? k) ∧
      ∀ t, (toSearch assets (ds.foldl (relax assets goal cur) s)).cost t =
        if (∃ d ∈ ds, t = cur.tile + d) ∧ Open assets t ∧ key t ∉ s.closed then
          some (relaxed ((toSearch assets s).cost t) (cur.g + 1))
        else (toSearch assets s).cost t := by
  induction ds with
  | nil =>
    intro s _ hl _ _
    exact ⟨hl, rfl, rfl, fun _ _ => rfl, fun t => by rw [if_neg]; rfl; simp⟩
  | cons d ds ih =>
    intro s hds hl hcur hclosed
    obtain ⟨hd, hnodup⟩ := nodup_cons.mp hnodup
    have hneighbour := hds d mem_cons_self
    obtain ⟨hsame, hbest⟩ := @relax_fields assets goal cur s d
    have hcost := relax_cost hl hcur hclosed hneighbour
    obtain ⟨hl', hclosed', hbest', hkept', hcost'⟩ := ih hnodup (fun d' hd' => hds d' (mem_cons_of_mem d hd'))
      (relax_linked hl hcur hclosed hneighbour) ((relax_kept hl d hclosed).trans hcur) (hsame ▸ hclosed)
    rw [foldl_cons]
    refine ⟨hl', hclosed'.trans hsame, hbest'.trans hbest, ?_, ?_⟩
    · intro k hk
      rw [hkept' k (hsame ▸ hk), relax_kept hl d hk]
    · intro t
      rw [hcost', hcost, hsame]
      by_cases ht : t = cur.tile + d
      · have hother : ¬ ((∃ d' ∈ ds, t = cur.tile + d') ∧ Open assets t ∧ key t ∉ s.closed) := by
          rintro ⟨⟨d', hd', ht'⟩, -⟩
          exact hd (add_inj (ht.symm.trans ht') ▸ hd')
        have hmem : ∃ d' ∈ d :: ds, t = cur.tile + d' := ⟨d, mem_cons_self, ht⟩
        rw [if_neg hother]
        simp only [ht, true_and]
        rw [← ht]
        simp only [hmem, true_and]
      · have hmem : (∃ d' ∈ d :: ds, t = cur.tile + d') ↔ ∃ d' ∈ ds, t = cur.tile + d' := by
          simp [ht]
        simp only [ht, false_and, if_false, hmem]

/-! The loop. -/

/-- What holds each time the loop starts a turn. -/
structure Searching (assets : Option Collisions) (start goal : Tile) (s : Search) : Prop where
  linked : Linked assets start goal s
  sound : Sound (Adj assets) start (toSearch assets s)
  best : s.all.get? (key s.best.tile) = some s.best
  settled : key s.best.tile ∈ s.closed ∨ s = initial start goal
  fresh : key goal ∉ s.closed

theorem initial_searching (hopen : Open assets start) : Searching assets start goal (initial start goal) where
  linked := initial_linked hopen
  sound := initial_sound hopen
  best := Dict.get?_set_self _ _ _
  settled := Or.inr rfl
  fresh := not_mem_nil

/-- The search after a turn with `cur`. -/
def turn (assets : Option Collisions) (goal : Tile) (s : Search) (cur : Node) : Search :=
  neighbours.foldl (relax assets goal cur) (settle { s with best := better goal s.best cur } cur)

section
variable (hl : Linked assets start goal s)
include hl

theorem linked_best (best : Node) : Linked assets start goal { s with best := best } :=
  ⟨hl.node, hl.opened, hl.seen, hl.parent, hl.nodup⟩

theorem cheapest_open (hcheapest : cheapest s.opened.values = some cur) :
    key cur.tile ∉ s.closed ∧ s.all.get? (key cur.tile) = some cur ∧ Open assets cur.tile := by
  obtain ⟨hopen, hcur⟩ := (mem_opened hl).mp (cheapest_eq_some hcheapest).1
  exact ⟨hopen, hcur, (hl.node _ _ hcur).2.1⟩

theorem turn_record (hcheapest : cheapest s.opened.values = some cur) :
    Linked assets start goal (turn assets goal s cur) ∧
      (turn assets goal s cur).closed = key cur.tile :: s.closed ∧
      (turn assets goal s cur).best = better goal s.best cur ∧
      (∀ k ∈ key cur.tile :: s.closed, (turn assets goal s cur).all.get? k = s.all.get? k) ∧
      ∀ t, (toSearch assets (turn assets goal s cur)).cost t =
        if (∃ d ∈ neighbours, t = cur.tile + d) ∧ Open assets t ∧ key t ∉ key cur.tile :: s.closed then
          some (relaxed ((toSearch assets s).cost t) (cur.g + 1))
        else (toSearch assets s).cost t := by
  obtain ⟨hfresh, hcur, -⟩ := cheapest_open hl hcheapest
  exact foldl_relax neighbours (by decide) (fun _ hd => hd) (settle_linked (linked_best hl (better goal s.best cur)) hcur hfresh)
    hcur mem_cons_self

theorem turn_expands (hcheapest : cheapest s.opened.values = some cur) :
    Expands (Adj assets) (estimate goal) (toSearch assets s) cur.tile cur.g (toSearch assets (turn assets goal s cur)) := by
  obtain ⟨hfresh, hcur, hopen⟩ := cheapest_open hl hcheapest
  obtain ⟨-, hclosed, -, -, hcost⟩ := turn_record hl hcheapest
  have hset : ∀ t, t ∈ (toSearch assets (turn assets goal s cur)).closed ↔ Open assets t ∧ key t ∈ key cur.tile :: s.closed := by
    intro t
    rw [← hclosed]
    rfl
  refine ⟨cost_of_node hl hopen hcur, fun h => hfresh h.2, ?_, ?_, ?_, ?_⟩
  · intro t g ht hfree
    obtain ⟨n, hn, rfl, rfl⟩ := cost_eq_some.mp ht
    obtain ⟨-, hopen', hf⟩ := hl.node _ _ hn
    have hmem : n ∈ s.opened.values := (mem_opened hl).mpr ⟨fun hk => hfree ⟨hopen', hk⟩, hn⟩
    have hle := (cheapest_eq_some hcheapest).2 n hmem
    rw [hf, (hl.node _ _ hcur).2.2] at hle
    exact hle
  · ext t
    rw [hset, mem_cons]
    constructor
    · rintro ⟨ht, hk | hk⟩
      · exact Or.inl (key_inj ht.inMap hopen.inMap hk)
      · exact Or.inr ⟨ht, hk⟩
    · rintro (rfl | ⟨ht, hk⟩)
      · exact ⟨hopen, Or.inl rfl⟩
      · exact ⟨ht, Or.inr hk⟩
  · intro t ht
    rw [hcost, if_neg]
    rintro ⟨hnear, hopen', hk⟩
    obtain hmem | hfar := ht
    · exact hk ((hset t).mp hmem).2
    · exact hfar ⟨hopen', hnear⟩
  · intro t ht hadj
    rw [hcost, if_pos ⟨hadj.2, hadj.1, fun hk => ht ((hset t).mpr ⟨hadj.1, hk⟩)⟩]

end

theorem Searching.turn (h : Searching assets start goal s) (hcheapest : cheapest s.opened.values = some cur)
    (hgoal : cur.tile ≠ goal) (hopen : Open assets goal) : Searching assets start goal (turn assets goal s cur) := by
  obtain ⟨hfresh, hcur, hopen'⟩ := cheapest_open h.linked hcheapest
  obtain ⟨hl, hclosed, hbest, hkept, -⟩ := turn_record h.linked hcheapest
  have hsettled : key s.best.tile ∈ key cur.tile :: s.closed := by
    obtain hold | rfl := h.settled
    · exact mem_cons_of_mem _ hold
    · have hfirst : cur = startNode start goal := by
        have hmem := (cheapest_eq_some hcheapest).1
        have hsame : startNode start goal = cur := by simpa [initial, mem_values, Dict.get?_set] using hmem
        exact hsame.symm
      rw [hfirst]
      exact mem_cons_self
  have hbetter : key (better goal s.best cur).tile ∈ key cur.tile :: s.closed ∧
      s.all.get? (key (better goal s.best cur).tile) = some (better goal s.best cur) := by
    unfold better
    split
    · exact ⟨mem_cons_self, hcur⟩
    · exact ⟨hsettled, h.best⟩
  refine ⟨hl, (turn_expands h.linked hcheapest).sound (estimate_consistent assets goal) h.sound, ?_, ?_, ?_⟩
  · rw [hbest, hkept _ hbetter.1]
    exact hbetter.2
  · rw [hbest, hclosed]
    exact Or.inl hbetter.1
  · rw [hclosed, mem_cons, not_or]
    exact ⟨fun hk => hgoal (key_inj hopen.inMap hopen'.inMap hk).symm, h.fresh⟩

theorem length_closed_le (hl : Linked assets start goal s) : s.closed.length ≤ 625 := by
  have hsub : s.closed ⊆ (List.range 625).map Int.ofNat := by
    intro k hk
    obtain ⟨n, hn⟩ := hl.seen k hk
    obtain ⟨rfl, hopen, -⟩ := hl.node k n hn
    obtain ⟨hlow, hhigh⟩ := key_range hopen.inMap
    exact List.mem_map.mpr ⟨(key n.tile).toNat, mem_range.mpr (by omega), Int.toNat_of_nonneg hlow⟩
  have hlength := (subperm_of_subset hl.nodup hsub).length_le
  rwa [length_map, length_range] at hlength

/-- How the loop ends: with the goal at its least cost, or with nothing left to open. -/
structure Found (assets : Option Collisions) (start goal : Tile) (s : Search) : Prop where
  linked : Linked assets start goal s
  node : ∃ n, s.all.get? (key goal) = some n ∧ n.tile = goal ∧ Distance (Adj assets) start goal n.g

structure Exhausted (assets : Option Collisions) (start goal : Tile) (s : Search) : Prop where
  searching : Searching assets start goal s
  nothing : s.opened.values = []

theorem searchLoop_ends (hopen : Open assets goal) : ∀ (guard : Nat) {s : Search}, Searching assets start goal s →
    625 < guard + s.closed.length →
      (∃ s', searchLoop assets goal guard s = (s', some (key goal)) ∧ Found assets start goal s') ∨
        ∃ s', searchLoop assets goal guard s = (s', none) ∧ Exhausted assets start goal s' := by
  intro guard
  induction guard with
  | zero =>
    intro s h hguard
    have := length_closed_le h.linked
    omega
  | succ guard ih =>
    intro s h hguard
    unfold searchLoop
    cases hcheapest : cheapest s.opened.values with
    | none => exact Or.inr ⟨s, rfl, h, cheapest_eq_none hcheapest⟩
    | some cur =>
      dsimp only
      obtain ⟨hfresh, hcur, hopen'⟩ := cheapest_open h.linked hcheapest
      have hexpands := turn_expands h.linked hcheapest
      by_cases hgoal : cur.tile = goal
      · rw [if_pos hgoal]
        refine Or.inl ⟨{ s with best := better goal s.best cur }, by rw [hgoal], linked_best h.linked _, cur, hgoal ▸ hcur,
          hgoal, ?_⟩
        subst hgoal
        refine ⟨h.sound.walk _ _ hexpands.cost, fun m w => ?_⟩
        exact h.sound.least_of_cheapest (estimate_consistent assets _) hexpands.fresh hexpands.cheapest w
      · rw [if_neg hgoal]
        refine ih (h.turn hcheapest hgoal hopen) ?_
        change 625 < guard + (turn assets goal s cur).closed.length
        rw [(turn_record h.linked hcheapest).2.1, length_cons]
        omega

/-- With nothing left to open, everything that can be reached is closed. -/
theorem Exhausted.unreachable (h : Exhausted assets start goal s) {n : Nat} :
    ¬ Walk (Adj assets) start n goal := by
  intro w
  obtain hclosed | ⟨t, g, k, hfree, hcost, -, -⟩ := h.searching.sound.frontier w
  · exact h.searching.fresh hclosed.2
  · obtain ⟨n, hn, rfl, rfl⟩ := cost_eq_some.mp hcost
    have hopen' := (h.searching.linked.node _ _ hn).2.1
    have hmem : n ∈ s.opened.values := (mem_opened h.searching.linked).mpr ⟨fun hk => hfree ⟨hopen', hk⟩, hn⟩
    rw [h.nothing] at hmem
    exact absurd hmem not_mem_nil

/-! The cells. -/

theorem cellsOf_node {turns : Nat} (hl : Linked assets start goal s) (hn : s.all.get? k = some n) :
    cellsOf s.all (turns + 1) k = (cellsOf s.all turns n.parent).map (n.tile :: ·) := by
  obtain ⟨rfl, hopen, -⟩ := hl.node k n hn
  rw [cellsOf, if_neg (key_ne hopen.inMap), hn, bind_some]

theorem cellsOf_eq (hl : Linked assets start goal s) : ∀ (g : Nat) {k : Int} {n : Node}, s.all.get? k = some n → n.g = g →
    ∃ cells, (∀ turns, g + 2 ≤ turns → cellsOf s.all turns k = some (n.tile :: cells)) ∧ cells.length = g ∧
      List.IsChain (fun t u => Adj assets u t) (n.tile :: cells) ∧ (n.tile :: cells).getLast? = some start := by
  intro g
  induction g with
  | zero =>
    intro k n hn hg
    obtain ⟨hparent, htile, -⟩ | ⟨m, -, -, hg', -⟩ := hl.parent k n hn
    · refine ⟨[], ?_, rfl, List.IsChain.singleton _, by rw [htile]; rfl⟩
      intro turns hturns
      obtain ⟨turns, rfl⟩ := Nat.exists_eq_add_of_le' hturns
      rw [show turns + (0 + 2) = turns + 1 + 1 from rfl, cellsOf_node hl hn, hparent]
      rfl
    · omega
  | succ g ih =>
    intro k n hn hg
    obtain ⟨-, -, hg'⟩ | ⟨m, hm, -, hg', hadj⟩ := hl.parent k n hn
    · omega
    · obtain ⟨cells, hcells, hlength, hchain, hlast⟩ := ih hm (by omega)
      refine ⟨m.tile :: cells, ?_, by rw [length_cons, hlength], IsChain.cons_cons hadj hchain, ?_⟩
      · intro turns hturns
        obtain ⟨turns, rfl⟩ : ∃ i, turns = i + 1 := ⟨turns - 1, by omega⟩
        rw [cellsOf_node hl hn, hcells turns (by omega)]
        rfl
      · rw [List.getLast?_cons_cons]
        exact hlast

end SelericSwarm.NavMesh
