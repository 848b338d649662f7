import Mathlib.Data.List.TakeWhile
import SelericSwarm.RegexSearch

/-! Patterns that keep within the parts of a text between separators. -/
open List

namespace Backtracking

/-- The place, with more text on both sides. -/
def Spot.within (behind ahead : List Char) (s : Spot) : Spot := { s with before := s.before ++ behind, rest := s.rest ++ ahead }

def Separated (sep : Char → Bool) (text : List Char) : Prop := ∀ c ∈ text.head?, sep c = true

theorem separated_nil (sep : Char → Bool) : Separated sep [] := by
  intro c hc
  cases hc

theorem separated_cons {sep : Char → Bool} {c : Char} (hc : sep c = true) (text : List Char) : Separated sep (c :: text) := by
  intro d hd
  exact Option.some.inj hd ▸ hc

theorem any_head?_append {sep p : Char → Bool} (hp : ∀ c, sep c = true → p c = false) {behind : List Char}
    (hbehind : Separated sep behind) (text : List Char) : (text ++ behind).head?.any p = text.head?.any p := by
  cases text with
  | cons c text => rfl
  | nil =>
    cases behind with
    | nil => rfl
    | cons c behind => exact hp c (hbehind c rfl)

namespace Regex

/-- Separators are neither taken nor told from the ends of the text. -/
def Avoids (sep : Char → Bool) : Regex → Prop
  | empty => True
  | char p | boundary p | notBehind p => ∀ c, sep c = true → p c = false
  | notAhead r | many _ r | group _ r => Avoids sep r
  | seq r q | alt r q => Avoids sep r ∧ Avoids sep q

theorem repeatedly_fuel {step : Spot → List Spot} (more : Nat) (fuel : Nat) : ∀ least (s : Spot), s.rest.length ≤ fuel →
    repeatedly step (fuel + more) least s = repeatedly step fuel least s := by
  induction fuel with
  | zero =>
    intro least s hfuel
    cases more with
    | zero => rfl
    | succ more =>
      have hnone : ((step s).filter fun t => t.rest.length < s.rest.length) = [] := by
        refine filter_eq_nil_iff.mpr fun t _ hshort => ?_
        have hlt := of_decide_eq_true hshort
        omega
      rw [Nat.zero_add, repeatedly_succ, hnone]
      rfl
  | succ fuel ih =>
    intro least s hfuel
    rw [Nat.add_right_comm, repeatedly_succ, repeatedly_succ]
    congr 1
    refine flatMap_congr fun t ht => ih _ t ?_
    have hlt := of_decide_eq_true (mem_filter.mp ht).2
    omega

section Within
variable {sep : Char → Bool} {behind ahead : List Char}

theorem repeatedly_within {step : Spot → List Spot}
    (hstep : ∀ s, step (s.within behind ahead) = (step s).map (Spot.within behind ahead)) (fuel : Nat) :
    ∀ least s, repeatedly step fuel least (s.within behind ahead) =
      (repeatedly step fuel least s).map (Spot.within behind ahead) := by
  induction fuel with
  | zero =>
    intro least s
    rw [repeatedly_zero, repeatedly_zero]
    split
    · rfl
    · rfl
  | succ fuel ih =>
    intro least s
    have hshort : ((step (s.within behind ahead)).filter fun t => t.rest.length < (s.within behind ahead).rest.length) =
        ((step s).filter fun t => t.rest.length < s.rest.length).map (Spot.within behind ahead) := by
      rw [hstep, List.filter_map]
      congr 1
      refine filter_congr fun t _ => ?_
      simp [Spot.within]
    rw [repeatedly_succ, repeatedly_succ, hshort, map_append, map_flatMap, flatMap_map]
    congr 1
    · exact flatMap_congr fun t _ => ih _ t
    · split
      · rfl
      · rfl

theorem run_within {r : Regex} (h : r.Avoids sep) (hbehind : Separated sep behind) (hahead : Separated sep ahead) :
    ∀ s, r.run (s.within behind ahead) = (r.run s).map (Spot.within behind ahead) := by
  induction r with
  | empty => exact fun _ => rfl
  | char p =>
    intro s
    rw [run_char, run_char]
    cases hrest : s.rest with
    | nil =>
      have hmore : (s.within behind ahead).rest = ahead := by
        rw [Spot.within, hrest]
        rfl
      rw [hmore]
      cases ahead with
      | nil => rfl
      | cons c ahead => exact if_neg (by rw [h c (hahead c rfl)]; exact Bool.false_ne_true)
    | cons c rest =>
      have hmore : (s.within behind ahead).rest = c :: (rest ++ ahead) := by
        rw [Spot.within, hrest]
        rfl
      rw [hmore]
      dsimp only
      split
      · rfl
      · rfl
  | boundary word =>
    intro s
    have hbefore : (s.within behind ahead).before.head?.any word = s.before.head?.any word := any_head?_append h hbehind _
    have hrest : (s.within behind ahead).rest.head?.any word = s.rest.head?.any word := any_head?_append h hahead _
    rw [run_boundary, run_boundary, hbefore, hrest]
    split
    · rfl
    · rfl
  | notBehind p =>
    intro s
    have hbefore : (s.within behind ahead).before.head?.any p = s.before.head?.any p := any_head?_append h hbehind _
    rw [run_notBehind, run_notBehind, hbefore]
    split
    · rfl
    · rfl
  | notAhead r ih =>
    intro s
    rw [run_notAhead, run_notAhead, ih h, isEmpty_map]
    split
    · rfl
    · rfl
  | seq r q ihr ihq =>
    intro s
    rw [run_seq, run_seq, ihr h.1, map_flatMap, flatMap_map]
    exact flatMap_congr fun t _ => ihq h.2 t
  | alt r q ihr ihq =>
    intro s
    rw [run_alt, run_alt, ihr h.1, ihq h.2, map_append]
  | many least r ih =>
    intro s
    have hlength : (s.within behind ahead).rest.length = s.rest.length + ahead.length := length_append
    rw [run_many, run_many, hlength, repeatedly_within (ih h), repeatedly_fuel _ _ _ _ (Nat.le_refl _)]
  | group name r ih =>
    intro s
    have hgroup : ∀ s, (group name r).run s = (r.run s).map fun t =>
        { t with groups := (name, s.rest.take (s.rest.length - t.rest.length)) :: t.groups } := fun _ => rfl
    rw [hgroup, hgroup, ih h, List.map_map, List.map_map]
    refine map_congr_left fun t ht => ?_
    have hlength : (s.rest ++ ahead).length - (t.rest ++ ahead).length = s.rest.length - t.rest.length := by
      rw [length_append, length_append]
      omega
    simp only [Function.comp_apply, Spot.within]
    rw [hlength, take_append_of_le_length (Nat.sub_le _ _)]

end Within

/-! The pieces of the parts. -/

theorem cut_fuel (r : Regex) (more : Nat) (fuel : Nat) : ∀ before rest, rest.length ≤ fuel →
    r.cut (fuel + more) before rest = r.cut fuel before rest := by
  induction fuel with
  | zero =>
    intro before rest hfuel
    rw [length_eq_zero_iff.mp (Nat.le_zero.mp hfuel)]
    cases more with
    | zero => rfl
    | succ more => rfl
  | succ fuel ih =>
    intro before rest hfuel
    cases rest with
    | nil =>
      rw [Nat.add_right_comm]
      rfl
    | cons c rest =>
      rw [length_cons] at hfuel
      rw [Nat.add_right_comm, cut, cut, ih _ rest (by omega)]
      cases (r.run { before, rest := c :: rest }).head? with
      | none => rfl
      | some t =>
        dsimp only
        split
        · next hshort => rw [ih _ t.rest (by omega)]
        · rfl

variable {r : Regex}

theorem cut_enough {fuel : Nat} {before rest : List Char} (h : rest.length ≤ fuel) :
    r.cut fuel before rest = r.cut rest.length before rest := by
  have hmore := cut_fuel r (fuel - rest.length) rest.length before rest (Nat.le_refl _)
  rw [Nat.add_sub_cancel' h] at hmore
  exact hmore

section Parts
variable {sep : Char → Bool} {r : Regex} (h : r.Avoids sep)

include h

theorem cut_behind {behind : List Char} (hbehind : Separated sep behind) (fuel : Nat) :
    ∀ before rest, r.cut fuel (before ++ behind) rest = r.cut fuel before rest := by
  induction fuel with
  | zero => exact fun _ _ => rfl
  | succ fuel ih =>
    intro before rest
    cases rest with
    | nil => rfl
    | cons c rest =>
      have hrun : r.run { before := before ++ behind, rest := c :: rest } =
          (r.run { before, rest := c :: rest }).map (Spot.within behind []) := by
        have hwithin := run_within h hbehind (separated_nil sep) { before, rest := c :: rest }
        rw [← hwithin, Spot.within, append_nil]
      have hplain : r.cut fuel (c :: (before ++ behind)) rest = r.cut fuel (c :: before) rest := ih (c :: before) rest
      rw [cut, cut, hrun, List.head?_map, hplain]
      cases (r.run { before, rest := c :: rest }).head? with
      | none => rfl
      | some t =>
        simp only [Option.map_some, Spot.within, append_nil]
        rw [ih]

variable {c : Char}

section
variable (hc : sep c = true)
include hc

theorem run_ahead (before a b : List Char) : r.run { before, rest := a ++ c :: b } =
    (r.run { before, rest := a }).map (Spot.within [] (c :: b)) := by
  have hwithin := run_within h (separated_nil sep) (separated_cons hc b) { before, rest := a }
  rw [← hwithin, Spot.within, append_nil]

theorem cut_separator (fuel : Nat) (before b : List Char) :
    r.cut (fuel + 1) before (c :: b) = .plain c :: r.cut fuel (c :: before) b := by
  obtain ⟨-, hcut⟩ | ⟨t, m, hhead, hsplit, hm, -⟩ := cut_cases r fuel before c b
  · exact hcut
  · have ht := mem_of_head? hhead
    rw [show c :: b = [] ++ c :: b from rfl, run_ahead h hc] at ht
    obtain ⟨u, hu, rfl⟩ := List.mem_map.mp ht
    obtain ⟨taken, hrest, -⟩ := run_reaches r _ u hu
    have hnil : u.rest = [] := (append_eq_nil_iff.mp hrest.symm).2
    simp only [Spot.within, hnil, nil_append] at hsplit
    exact absurd (self_eq_append_left.mp hsplit) hm

theorem cut_append (b : List Char) (fuel : Nat) : ∀ before a, a.length + 1 + b.length ≤ fuel →
    r.cut fuel before (a ++ c :: b) =
      r.cut a.length before a ++ .plain c :: r.cut b.length (c :: (a.reverse ++ before)) b := by
  induction fuel with
  | zero =>
    intro before a hfuel
    omega
  | succ fuel ih =>
    intro before a hfuel
    cases a with
    | nil =>
      rw [nil_append, cut_separator h hc, cut_enough (by omega : b.length ≤ fuel)]
      rfl
    | cons x a =>
      rw [length_cons] at hfuel
      have hnext := ih (x :: before) a (by omega)
      have hreverse : a.reverse ++ x :: before = (x :: a).reverse ++ before := by
        rw [reverse_cons, append_assoc, singleton_append]
      rw [hreverse] at hnext
      have hrun := run_ahead h hc before (x :: a) b
      rw [cons_append] at hrun ⊢
      rw [cut, length_cons, cut, hrun, List.head?_map, hnext]
      cases hhead : (r.run { before, rest := x :: a }).head? with
      | none => rfl
      | some t =>
        obtain ⟨taken, hrest, hbefore⟩ := run_reaches r _ t (mem_of_head? hhead)
        have hlength : (t.rest ++ c :: b).length ≤ (a ++ c :: b).length ↔ t.rest.length ≤ a.length := by
          rw [length_append, length_append]
          omega
        simp only [Option.map_some, Spot.within, append_nil, hlength]
        split
        · next hshort =>
          have htaken : (a ++ c :: b).length + 1 - (t.rest ++ c :: b).length = a.length + 1 - t.rest.length := by
            rw [length_append, length_append]
            omega
          have hbehind : t.rest.reverse ++ t.before = (x :: a).reverse ++ before := by
            have hreversed := congrArg List.reverse (show x :: a = taken ++ t.rest from hrest)
            rw [hbefore, hreversed, reverse_append, append_assoc]
          have hle : a.length + 1 - t.rest.length ≤ (x :: a).length := Nat.sub_le _ _
          have htext : (x :: (a ++ c :: b)).take (a.length + 1 - t.rest.length) = (x :: a).take (a.length + 1 - t.rest.length) :=
            take_append_of_le_length hle
          rw [ih t.before t.rest (by omega), hbehind, cut_enough hshort, htaken, htext]
          rfl
        · rfl

/-- The pieces of a text are those of its parts, with the separator between them. -/
theorem scan_append (a b : List Char) : r.scan (a ++ c :: b) = r.scan a ++ .plain c :: r.scan b := by
  have hlength : a.length + 1 + b.length ≤ (a ++ c :: b).length := by
    rw [length_append, length_cons]
    omega
  have hbehind := cut_behind h (separated_cons hc a.reverse) b.length [] b
  rw [scan, cut_append h hc b _ [] a hlength, append_nil, ← nil_append (c :: a.reverse), hbehind]
  rfl

theorem sub_append (template : Groups → List Char) (a b : List Char) :
    r.sub template (a ++ c :: b) = r.sub template a ++ c :: r.sub template b := by
  rw [sub, scan_append h hc, flatMap_append, flatMap_cons]
  rfl

theorem finditer_append (a b : List Char) : r.finditer (a ++ c :: b) = r.finditer a ++ r.finditer b := by
  rw [finditer, scan_append h hc, filterMap_append, filterMap_cons]
  rfl

end

theorem finditer_separators {gap : List Char} (hgap : ∀ c ∈ gap, sep c = true) (a : List Char) :
    r.finditer (a ++ gap) = r.finditer a := by
  cases gap with
  | nil => rw [append_nil]
  | cons c gap =>
    have hrest : r.finditer gap = [] := by
      induction gap with
      | nil => rfl
      | cons d gap ih =>
        have hd : sep d = true := hgap d (mem_cons_of_mem c mem_cons_self)
        rw [show d :: gap = [] ++ d :: gap from rfl, finditer_append h hd, ih ?_]
        · rfl
        · intro e he
          obtain rfl | he := mem_cons.mp he
          · exact hgap e mem_cons_self
          · exact hgap e (mem_cons_of_mem c (mem_cons_of_mem d he))
    rw [finditer_append h (hgap c mem_cons_self), hrest, append_nil]

end Parts

/-! A pattern that also takes the separators in front of it. -/

/-- A match is never empty. -/
def Takes (r : Regex) : Prop := ∀ s, ∀ t ∈ r.run s, t.rest.length < s.rest.length

theorem length_run_le {s t : Spot} (h : t ∈ r.run s) : t.rest.length ≤ s.rest.length := by
  obtain ⟨taken, hrest, -⟩ := run_reaches r s t h
  rw [hrest, length_append]
  exact Nat.le_add_left _ _

theorem takes_char (p : Char → Bool) : (char p).Takes := by
  intro s t ht
  obtain ⟨c, rest, hrest, -, rfl⟩ := mem_run_char.mp ht
  rw [hrest]
  exact Nat.lt_succ_self rest.length

theorem Takes.seq_left (h : r.Takes) (q : Regex) : (seq r q).Takes := by
  intro s t ht
  obtain ⟨u, hu, ht⟩ := mem_run_seq.mp ht
  exact (length_run_le ht).trans_lt (h s u hu)

theorem Takes.seq_right {q : Regex} (h : q.Takes) (r : Regex) : (seq r q).Takes := by
  intro s t ht
  obtain ⟨u, hu, ht⟩ := mem_run_seq.mp ht
  exact (h u t ht).trans_le (length_run_le hu)

theorem head?_flatMap {α β : Type} {f : α → List β} {a : α} {b : β} {items : List α}
    (hone : ∀ x ∈ items, f x ≠ [] → x = a) (ha : a ∈ items) : (items.flatMap f).head? = some b ↔ (f a).head? = some b := by
  induction items with
  | nil => cases ha
  | cons x items ih =>
    have hrest : ∀ y ∈ items, f y ≠ [] → y = a := fun y hy => hone y (mem_cons_of_mem x hy)
    rw [flatMap_cons]
    cases hx : f x with
    | cons y ys =>
      have hsame : x = a := hone x mem_cons_self (by rw [hx]; exact cons_ne_nil y ys)
      rw [← hsame, hx]
      rfl
    | nil =>
      rw [nil_append]
      obtain rfl | ha := mem_cons.mp ha
      · -- nothing behind it matches either
        have hnone : items.flatMap f = [] := flatMap_eq_nil_iff.mpr fun y hy => by
          by_contra hne
          exact hne ((congrArg f (hrest y hy hne)).trans hx)
        rw [hnone, hx]
      · exact ih hrest ha

/-- A text is cut in one way behind its first separators. -/
theorem gaps_unique {sep : Char → Bool} {gap gap' rest rest' : List Char} (h : gap ++ rest = gap' ++ rest')
    (hgap : ∀ c ∈ gap, sep c = true) (hgap' : ∀ c ∈ gap', sep c = true) (hrest : ∀ c ∈ rest.head?, sep c = false)
    (hrest' : ∀ c ∈ rest'.head?, sep c = false) : gap = gap' ∧ rest = rest' := by
  induction gap generalizing gap' with
  | nil =>
    cases gap' with
    | nil => exact ⟨rfl, h⟩
    | cons c gap' =>
      have hc : sep c = true := hgap' c mem_cons_self
      have hhead : rest.head? = some c := congrArg List.head? h
      rw [hrest c hhead] at hc
      cases hc
  | cons c gap ih =>
    have hc : sep c = true := hgap c mem_cons_self
    cases gap' with
    | nil =>
      have hhead : rest'.head? = some c := congrArg List.head? h.symm
      rw [hrest' c hhead] at hc
      cases hc
    | cons d gap' =>
      obtain ⟨rfl, htail⟩ := List.cons.inj h
      obtain ⟨rfl, hsame⟩ := ih htail (fun d hd => hgap d (mem_cons_of_mem c hd))
        fun d hd => hgap' d (mem_cons_of_mem c hd)
      exact ⟨rfl, hsame⟩

section Gaps
variable {sep : Char → Bool} {q : Regex} (hq : q.Avoids sep) (htakes : q.Takes)

include hq htakes

theorem run_separator {c : Char} (hc : sep c = true) (before rest : List Char) : q.run { before, rest := c :: rest } = [] := by
  have hnil : q.run { before, rest := [] } = [] := eq_nil_iff_forall_not_mem.mpr fun t ht =>
    Nat.not_lt_zero _ (htakes _ t ht)
  rw [show c :: rest = [] ++ c :: rest from rfl, run_ahead hq hc, hnil]
  rfl

theorem head?_run_gap (before : List Char) {gap rest : List Char} (hgap : ∀ c ∈ gap, sep c = true) (hrest : ∀ c ∈ rest.head?, sep c = false)
    (t : Spot) : ((seq (many 0 (char sep)) q).run { before, rest := gap ++ rest }).head? = some t ↔
      (q.run { before := gap.reverse ++ before, rest }).head? = some t := by
  rw [run_seq]
  let a : Spot := { before := gap.reverse ++ before, rest }
  refine head?_flatMap (a := a) (fun s hs hmatch => ?_) ?_
  · obtain ⟨taken, rest', hsplit, htaken, -, rfl⟩ := mem_run_many_char.mp hs
    -- behind a part of the separators there is one more
    have hnext : ∀ c ∈ rest'.head?, sep c = false := by
      intro c hc
      cases rest' with
      | nil => cases hc
      | cons d rest' =>
        obtain rfl := Option.some.inj hc
        by_contra hsep
        exact hmatch (run_separator hq htakes (Bool.not_eq_false _ ▸ hsep) _ rest')
    obtain ⟨rfl, rfl⟩ := gaps_unique hsplit.symm htaken hgap hnext hrest
    rfl
  · exact mem_run_many_char.mpr ⟨gap, rest, rfl, hgap, Nat.zero_le _, rfl⟩

omit htakes in
theorem cut_gap {gap : List Char} (hgap : ∀ c ∈ gap, sep c = true) (rest : List Char) : ∀ before,
    q.cut (gap ++ rest).length before (gap ++ rest) = gap.map .plain ++ q.cut rest.length (gap.reverse ++ before) rest := by
  induction gap with
  | nil => exact fun _ => rfl
  | cons c gap ih =>
    intro before
    have hrest := ih (fun d hd => hgap d (mem_cons_of_mem c hd)) (c :: before)
    rw [cons_append, length_cons, cut_separator hq (hgap c mem_cons_self), hrest, reverse_cons,
      append_assoc]
    rfl

/-- Where the pattern begins a match behind the separators, so does the one that takes them. -/
theorem cut_gap_cases {fuel : Nat} {c : Char} {rest : List Char} (hfuel : rest.length ≤ fuel) (before : List Char) :
    ((seq (many 0 (char sep)) q).cut (fuel + 1) before (c :: rest) =
        .plain c :: (seq (many 0 (char sep)) q).cut fuel (c :: before) rest ∧
      q.cut (fuel + 1) before (c :: rest) = .plain c :: q.cut fuel (c :: before) rest) ∨
    ∃ (gap m m' : List Char) (t : Spot), (∀ d ∈ gap, sep d = true) ∧ t.rest.length ≤ fuel ∧
      (seq (many 0 (char sep)) q).cut (fuel + 1) before (c :: rest) =
        .found m t.groups :: (seq (many 0 (char sep)) q).cut fuel t.before t.rest ∧
      q.cut (fuel + 1) before (c :: rest) = gap.map .plain ++ .found m' t.groups :: q.cut fuel t.before t.rest := by
  let gap := (c :: rest).takeWhile sep
  let rest' := (c :: rest).dropWhile sep
  have hsplit : gap ++ rest' = c :: rest := takeWhile_append_dropWhile
  have hgap : ∀ d ∈ gap, sep d = true := fun d hd => mem_takeWhile_imp hd
  have hrest' : ∀ d ∈ rest'.head?, sep d = false := by
    intro d hd
    have hnot := List.head?_dropWhile_not sep (c :: rest)
    rw [show ((c :: rest).dropWhile sep).head? = some d from hd] at hnot
    exact hnot
  have hhead := head?_run_gap hq htakes before hgap hrest'
  rw [hsplit] at hhead
  have hlength := congrArg List.length hsplit
  rw [length_append, length_cons] at hlength
  rw [cut]
  cases hrun : ((seq (many 0 (char sep)) q).run { before, rest := c :: rest }).head? with
  | none =>
    left
    refine ⟨rfl, ?_⟩
    rw [cut]
    cases hrun' : (q.run { before, rest := c :: rest }).head? with
    | none => rfl
    | some t =>
      by_cases hc : sep c = true
      · rw [run_separator hq htakes hc] at hrun'
        cases hrun'
      · have hnil : gap = [] := takeWhile_cons_of_neg hc
        rw [hnil] at hsplit hhead
        rw [show rest' = c :: rest from hsplit] at hhead
        rw [(hhead t).mpr hrun'] at hrun
        cases hrun
  | some t =>
    right
    have hfirst := (hhead t).mp hrun
    have hshort : t.rest.length < rest'.length := htakes _ t (mem_of_head? hfirst)
    have hle : t.rest.length ≤ rest.length := by omega
    obtain ⟨d, rest'', hd⟩ : ∃ d rest'', rest' = d :: rest'' :=
      exists_cons_of_length_pos (Nat.lt_of_le_of_lt (Nat.zero_le _) hshort)
    rw [hd] at hfirst hshort hlength
    rw [length_cons] at hshort hlength
    refine ⟨gap, _, (d :: rest'').take (rest''.length + 1 - t.rest.length), t, hgap, by omega, if_pos hle, ?_⟩
    rw [cut_enough (by rw [length_cons]; omega : (c :: rest).length ≤ fuel + 1), ← hsplit, cut_gap hq hgap, hd,
      length_cons, cut, hfirst]
    dsimp only
    rw [if_pos (by omega), cut_enough (by omega : t.rest.length ≤ rest''.length), cut_enough (by omega : t.rest.length ≤ fuel)]

/-- Taking the separators in front of what is replaced by a separator makes no difference to a pattern that avoids them. -/
theorem finditer_cut_gap {r : Regex} (hr : r.Avoids sep) {space : Char} (hspace : sep space = true) (fuel : Nat) :
    ∀ before rest u, rest.length ≤ fuel →
      r.finditer (u ++ ((seq (many 0 (char sep)) q).cut fuel before rest).flatMap (Piece.rendered fun _ => [space])) =
        r.finditer (u ++ (q.cut fuel before rest).flatMap (Piece.rendered fun _ => [space])) := by
  induction fuel with
  | zero => exact fun _ _ _ _ => rfl
  | succ fuel ih =>
    intro before rest u hfuel
    cases rest with
    | nil => rfl
    | cons c rest =>
      rw [length_cons] at hfuel
      obtain ⟨hcut, hcut'⟩ | ⟨gap, m, m', t, hgap, ht, hcut, hcut'⟩ :=
        cut_gap_cases hq htakes (c := c) (Nat.le_of_succ_le_succ hfuel) before
      · have hnext := ih (c :: before) rest (u ++ [c]) (by omega)
        rw [append_assoc, append_assoc] at hnext
        rw [hcut, hcut']
        exact hnext
      · have hnext := ih t.before t.rest [] ht
        rw [hcut, hcut', flatMap_append, rendered_plain, ← append_assoc]
        show r.finditer (u ++ space :: _) = r.finditer ((u ++ gap) ++ space :: _)
        rw [finditer_append hr hspace, finditer_append hr hspace, finditer_separators hr hgap]
        exact congrArg (r.finditer u ++ ·) hnext

theorem finditer_sub_gap {r : Regex} (hr : r.Avoids sep) {space : Char} (hspace : sep space = true) (text : List Char) :
    r.finditer ((seq (many 0 (char sep)) q).sub (fun _ => [space]) text) = r.finditer (q.sub (fun _ => [space]) text) :=
  finditer_cut_gap hq htakes hr hspace text.length [] text [] (Nat.le_refl _)

end Gaps

/-! The match that comes first. -/

theorem head?_run_seq {q : Regex} {s u t : Spot} (hu : (r.run s).head? = some u) (ht : (q.run u).head? = some t) :
    ((seq r q).run s).head? = some t := by
  obtain ⟨us, hus⟩ := List.head?_eq_some_iff.mp hu
  obtain ⟨ts, hts⟩ := List.head?_eq_some_iff.mp ht
  rw [run_seq, hus, flatMap_cons, hts]
  rfl

theorem head?_run_opt {s t : Spot} (h : (r.run s).head? = some t) : ((opt r).run s).head? = some t := by
  obtain ⟨ts, hts⟩ := List.head?_eq_some_iff.mp h
  rw [opt, run_alt, hts]
  rfl

theorem run_opt_of_nil {s : Spot} (h : r.run s = []) : (opt r).run s = [s] := by
  rw [opt, run_alt, h]
  rfl

theorem head?_run_many {p : Char → Bool} {least : Nat} {s : Spot} {gap rest : List Char} (hsplit : s.rest = gap ++ rest)
    (hgap : ∀ c ∈ gap, p c = true) (hrest : ∀ c ∈ rest.head?, p c = false) (hleast : least ≤ gap.length) :
    ((many least (char p)).run s).head? = some (s.after gap rest) := by
  have hmem : s.after gap rest ∈ (many least (char p)).run s := mem_run_many_char.mpr ⟨gap, rest, hsplit, hgap, hleast, rfl⟩
  obtain ⟨t, hhead⟩ := Option.isSome_iff_exists.mp (isSome_head?.mpr (ne_nil_of_mem hmem))
  have hle : t.rest.length ≤ rest.length := (shrinking_run_many_char p least s).head hhead hmem
  obtain ⟨taken, rest', hsplit', htaken, -, rfl⟩ := mem_run_many_char.mp (mem_of_head? hhead)
  have hprefix : gap <+: taken := by
    refine prefix_of_prefix_length_le (hsplit ▸ prefix_append gap rest) (hsplit' ▸ prefix_append taken rest') ?_
    have hlength := congrArg List.length (hsplit.symm.trans hsplit')
    rw [length_append, length_append] at hlength
    change rest'.length ≤ rest.length at hle
    omega
  obtain ⟨more, rfl⟩ := hprefix
  have hmore : rest = more ++ rest' := by
    rw [hsplit, append_assoc] at hsplit'
    exact append_cancel_left hsplit'
  cases more with
  | nil =>
    rw [hhead, hmore, append_nil]
    rfl
  | cons c more =>
    have hc : p c = true := htaken c (by simp)
    rw [hrest c (by rw [hmore]; rfl)] at hc
    cases hc

theorem head?_run_literal {ps : List (Char → Bool)} {taken : List Char} (h : List.Forall₂ (fun c p => p c = true) taken ps)
    (rest : List Char) : ∀ {s : Spot}, s.rest = taken ++ rest → ((literal ps).run s).head? = some (s.after taken rest) := by
  induction h with
  | nil =>
    intro s hsplit
    rw [← show s.rest = rest from hsplit, Spot.after_nil]
    rfl
  | @cons c p taken ps hc _ ih =>
    intro s hsplit
    have hchar : ((char p).run s).head? = some (s.after [c] (taken ++ rest)) := by
      rw [run_char, hsplit]
      simp only [cons_append, hc, if_pos]
      rfl
    have hnext : ((literal ps).run (s.after [c] (taken ++ rest))).head? = some (s.after (c :: taken) rest) := by
      rw [ih rfl, Spot.after_after]
      rfl
    exact head?_run_seq hchar hnext

/-! Texts without a match. -/

theorem pieces_plain {pieces : List Piece} (h : ∀ m groups, Piece.found m groups ∉ pieces) :
    pieces = (textOf pieces).map .plain := by
  induction pieces with
  | nil => rfl
  | cons piece pieces ih =>
    have hrest := ih fun m groups hm => h m groups (mem_cons_of_mem piece hm)
    cases piece with
    | plain c =>
      rw [textOf_cons, map_append, ← hrest]
      rfl
    | found m groups => exact absurd mem_cons_self (h m groups)

theorem sub_of_unmatched {text : List Char} (template : Groups → List Char)
    (h : ∀ before rest t, text = before ++ rest → t ∉ r.run { before := before.reverse, rest }) :
    r.sub template text = text := by
  have hplain : r.scan text = (textOf (r.scan text)).map .plain := by
    refine pieces_plain fun m groups hm => ?_
    obtain ⟨P, Q, hscan⟩ := append_of_mem hm
    obtain ⟨-, t, hhead, -, -⟩ := scan_found hscan
    have htext := r.textOf_scan text
    rw [hscan, textOf_append, textOf_cons] at htext
    exact h (textOf P) (m ++ textOf Q) t htext.symm (mem_of_head? hhead)
  rw [sub, hplain, rendered_plain, textOf_scan]

/-- A text that the first match takes is found. -/
theorem scan_of_whole {text : List Char} {t : Spot} (hne : text ≠ [])
    (hhead : (r.run { before := [], rest := text }).head? = some t) (hrest : t.rest = []) :
    r.scan text = [.found text t.groups] := by
  cases text with
  | nil => exact absurd rfl hne
  | cons c text =>
    rw [scan, length_cons, cut, hhead]
    dsimp only
    rw [hrest, length_nil, if_pos (Nat.zero_le _), Nat.sub_zero, take_of_length_le (Nat.le_of_eq (length_cons ..))]
    cases text with
    | nil => rfl
    | cons d text => rfl

end Regex
end Backtracking
