import SelericSwarm.Table

/-! A directory of files: names, what stands behind them, and handles that keep writing wherever
the file has gone. -/
namespace Keyed
universe u

/-- `contents` after `data` is written at `position`; a gap is filled with zeros. -/
def writeAt (contents : List UInt8) (position : Nat) (data : List UInt8) : List UInt8 :=
  if data = [] then contents
  else contents.take position ++ List.replicate (position - contents.length) 0 ++ data ++
    contents.drop (position + data.length)

theorem writeAt_end (contents data : List UInt8) : writeAt contents contents.length data = contents ++ data := by
  by_cases h : data = []
  · simp [writeAt, h]
  · simp [writeAt, h]

/-- Every name has a file of its own, and `next` is the first number no file has had. -/
structure Files (π : Type u) [DecidableEq π] where
  names : Dict π Nat := .empty
  contents : Dict Nat (List UInt8) := .empty
  next : Nat := 0
  bounded : ∀ p i, names.get? p = some i → i < next := by simp
  single : ∀ p q i, names.get? p = some i → names.get? q = some i → p = q := by simp

namespace Files
variable {π : Type u} [DecidableEq π] (fs : Files π)

/-- What a file holds, named or not. -/
def held (i : Nat) : List UInt8 := fs.contents.getD i []

def read (p : π) : Option (List UInt8) := (fs.names.get? p).map fs.held

/-- `write` of a handle. -/
def write (i position : Nat) (data : List UInt8) : Files π :=
  { fs with contents := fs.contents.set i (writeAt (fs.held i) position data) }

theorem bounded_set (p q : π) (i : Nat) (hq : (fs.names.set p fs.next).get? q = some i) : i < fs.next + 1 := by
  rw [Dict.get?_set] at hq
  split at hq
  · obtain rfl := Option.some.inj hq
    omega
  · have := fs.bounded q i hq
    omega

theorem single_set (p q r : π) (i : Nat) (hq : (fs.names.set p fs.next).get? q = some i)
    (hr : (fs.names.set p fs.next).get? r = some i) : q = r := by
  rw [Dict.get?_set] at hq hr
  split at hq <;> split at hr
  next hp hp' => exact hp.symm.trans hp'
  next =>
    obtain rfl := Option.some.inj hq
    exact absurd (fs.bounded r _ hr) (Nat.lt_irrefl _)
  next =>
    obtain rfl := Option.some.inj hr
    exact absurd (fs.bounded q _ hq) (Nat.lt_irrefl _)
  next => exact fs.single q r i hq hr

def add (p : π) : Files π where
  names := fs.names.set p fs.next
  contents := fs.contents.set fs.next []
  next := fs.next + 1
  bounded := fs.bounded_set p
  single := fs.single_set p

/-- `open("wb")`: the file under the name, emptied, or a new one. -/
def create (p : π) : Files π × Nat :=
  match fs.names.get? p with
  | some i => ({ fs with contents := fs.contents.set i [] }, i)
  | none => (fs.add p, fs.next)

/-- `unlink(missing_ok=True)`: the file loses its name, not its contents. -/
def unlink (p : π) : Files π where
  names := Table.erase fs.names p
  contents := fs.contents
  next := fs.next
  bounded := by
    intro q i hq
    rw [Dict.get?_erase] at hq
    split at hq
    · cases hq
    · exact fs.bounded q i hq
  single := by
    intro q r i hq hr
    rw [Dict.get?_erase] at hq hr
    split at hq
    · cases hq
    · split at hr
      · cases hr
      · exact fs.single q r i hq hr

/-- `replace`: the file moves under another name, whatever had that name. -/
def rename (p q : π) : Option (Files π) :=
  match h : fs.names.get? p with
  | none => none
  | some i => some {
      names := Dict.set (Table.erase fs.names p) q i
      contents := fs.contents
      next := fs.next
      bounded := by
        intro r j hr
        rw [Dict.get?_set, Dict.get?_erase] at hr
        split at hr
        · obtain rfl := Option.some.inj hr
          exact fs.bounded p i h
        · split at hr
          · cases hr
          · exact fs.bounded r j hr
      single := by
        have hgone : ∀ r, (if p = r then none else fs.names.get? r) ≠ some i := by
          intro r hr
          split at hr
          · cases hr
          next hne => exact hne (fs.single p r i h hr)
        intro r t j hr ht
        rw [Dict.get?_set, Dict.get?_erase] at hr ht
        split at hr <;> split at ht
        next hq hq' => exact hq.symm.trans hq'
        next =>
          obtain rfl := Option.some.inj hr
          exact absurd ht (hgone t)
        next =>
          obtain rfl := Option.some.inj ht
          exact absurd hr (hgone r)
        next =>
          split at hr
          · cases hr
          · split at ht
            · cases ht
            · exact fs.single r t j hr ht }

variable {fs} {p q : π} {i j : Nat}

theorem read_eq_some {contents : List UInt8} :
    fs.read p = some contents ↔ ∃ i, fs.names.get? p = some i ∧ fs.held i = contents :=
  Option.map_eq_some_iff

/-! `write`. -/

theorem held_write (position : Nat) (data : List UInt8) :
    (fs.write i position data).held j = if i = j then writeAt (fs.held i) position data else fs.held j := by
  rw [held, write, Dict.getD_set]
  rfl

theorem read_write_of_ne (hq : fs.names.get? q ≠ some i) (position : Nat) (data : List UInt8) :
    (fs.write i position data).read q = fs.read q := by
  rw [read, read]
  refine Option.map_congr fun j hj => ?_
  rw [held_write, if_neg]
  rintro rfl
  exact hq hj

/-! `create`. -/

theorem create_of_none (h : fs.names.get? p = none) : fs.create p = (fs.add p, fs.next) := by
  simp [create, h]

theorem names_add : (fs.add p).names.get? q = if p = q then some fs.next else fs.names.get? q :=
  Dict.get?_set ..

theorem held_add : (fs.add p).held j = if fs.next = j then [] else fs.held j :=
  Dict.getD_set ..

theorem read_add_of_ne (h : p ≠ q) : (fs.add p).read q = fs.read q := by
  rw [read, read, names_add, if_neg h]
  refine Option.map_congr fun j hj => ?_
  rw [held_add, if_neg]
  have := fs.bounded q j hj
  omega

/-! `unlink`. -/

theorem names_unlink : (fs.unlink p).names.get? q = if p = q then none else fs.names.get? q :=
  Dict.get?_erase ..

theorem read_unlink : (fs.unlink p).read q = if p = q then none else fs.read q := by
  rw [read, names_unlink]
  split
  · rfl
  · rfl

/-! `rename`. -/

theorem rename_cases {fs' : Files π} (h : fs.rename p q = some fs') : ∃ i, fs.names.get? p = some i ∧
    (∀ r, fs'.names.get? r = if q = r then some i else if p = r then none else fs.names.get? r) ∧
    (∀ j, fs'.held j = fs.held j) ∧ fs'.next = fs.next := by
  unfold rename at h
  split at h
  · cases h
  next i hi =>
    obtain rfl := Option.some.inj h
    refine ⟨i, hi, fun r => ?_, fun _ => rfl, rfl⟩
    dsimp only
    rw [Dict.get?_set, Dict.get?_erase]

theorem read_rename {fs' : Files π} (h : fs.rename p q = some fs') (r : π) :
    fs'.read r = if q = r then fs.read p else if p = r then none else fs.read r := by
  obtain ⟨i, hi, hnames, hheld, -⟩ := rename_cases h
  have hsame : fs'.held = fs.held := funext hheld
  rw [read, hnames, hsame, read, hi, read]
  split
  · rfl
  · split
    · rfl
    · rfl

end Files

end Keyed
