import Mathlib.Data.List.Sort
import Mathlib.Data.String.Basic
import SelericSwarm.Machine
import SelericSwarm.Table

/-! The migration runner over `schema_migrations`, one transaction a step, with a failure or a crash
between any two of them. -/
open List Option

namespace SelericSwarm.Persistence
open Keyed

abbrev Bytes := List UInt8

/-- A row of `schema_migrations`; a table not created yet has none. -/
structure MigrationRow where
  version : String
  checksum : Option String
  dirty : Bool
  deriving DecidableEq

/-- An entry of the directory; one that cannot be read has no bytes. -/
structure MigrationFile where
  name : String
  bytes : Option Bytes

/-- The locals of `_run_locked`, and the list it appends to. -/
structure MigrationRun where
  checksums : List (String × String) := []
  rows : List MigrationRow := []
  applied : List String := []

inductive MigrationOutcome where
  | returned
  | raised
  | crashed
  deriving DecidableEq

/-- Where `_run_locked` stands: before its SELECT, at a row or at a file, or behind the row
inserted for the file whose script is executed next. -/
inductive MigrationPhase where
  | locked
  | checking (rest : List MigrationRow)
  | applying (rest : List (String × String))
  | executing (version : String) (rest : List (String × String))

/-- `current` holds the advisory lock; `committed` are the scripts that have taken effect, the last one last. -/
structure Migrations where
  table : Table MigrationRow.version
  directory : Table MigrationFile.name
  committed : List String
  current : Option (MigrationRun × MigrationPhase) := none
  runs : List (MigrationRun × MigrationOutcome) := []

inductive MigrationStep where
  | start
  | select (rows : List MigrationRow)
  | check
  | insert
  | execute
  | breaks (outcome : MigrationOutcome)
  | returns
  | edit (directory : Table MigrationFile.name)
  | discard (version : String)
  | finish (version : String)

/-- What the row of the version says about being dirty. -/
def mark (table : Table MigrationRow.version) (version : String) : Option Bool :=
  (table.get? version).map MigrationRow.dirty

/-- `directory.glob("*.sql")`, sorted. -/
def sqlPaths (directory : Table MigrationFile.name) : List MigrationFile :=
  (directory.rows.filter fun file => ['.', 's', 'q', 'l'].isSuffixOf file.name.toList).insertionSort fun a b => a.name ≤ b.name

section
variable (sha256 : Bytes → String)

def checksumsOf (directory : Table MigrationFile.name) : Option (List (String × String)) :=
  (sqlPaths directory).mapM fun file => file.bytes.map fun bytes => (file.name, sha256 bytes)

namespace Migrations
variable (s : Migrations)

def ends (run : MigrationRun) (outcome : MigrationOutcome) : Migrations :=
  { s with current := none, runs := s.runs ++ [(run, outcome)] }

/-- The checksums, the SELECT and the search for dirty rows. -/
def select (run : MigrationRun) (rows : List MigrationRow) : Migrations :=
  (checksumsOf sha256 s.directory).elim (s.ends run .raised) fun checksums =>
    if rows.any MigrationRow.dirty then s.ends { run with checksums, rows } .raised
    else { s with current := some ({ run with checksums, rows }, .checking rows) }

/-- `UPDATE … SET checksum_sha256 = … WHERE version = … AND checksum_sha256 IS NULL`. -/
def adopt (version checksum : String) : Table MigrationRow.version :=
  s.table.mapRows (fun row => if row.version = version ∧ row.checksum = none then { row with checksum := some checksum } else row)
    fun row => by split <;> rfl

def check (run : MigrationRun) (row : MigrationRow) (rest : List MigrationRow) : Migrations :=
  match run.checksums.lookup row.version, row.checksum with
  | none, _ => { s with current := some (run, .checking rest) }
  | some expected, some recorded =>
    if recorded ≠ expected then s.ends run .raised else { s with current := some (run, .checking rest) }
  | some expected, none => { s with table := s.adopt row.version expected, current := some (run, .checking rest) }

/-- The files without a row. -/
def pending (run : MigrationRun) : List (String × String) :=
  run.checksums.filter fun file => file.1 ∉ run.rows.map MigrationRow.version

def insert (run : MigrationRun) (file : String × String) (rest : List (String × String)) : Migrations :=
  if (s.table.get? file.1).isSome then s.ends run .raised
  else { s with table := s.table.put ⟨file.1, some file.2, true⟩, current := some (run, .executing file.1 rest) }

/-- `UPDATE … SET dirty = FALSE … WHERE version = …`. -/
def clean (version : String) : Table MigrationRow.version :=
  s.table.mapRows (fun row => if row.version = version then { row with dirty := false } else row) fun row => by split <;> rfl

/-- The script and the update of its row commit together. -/
def execute (run : MigrationRun) (version : String) (rest : List (String × String)) : Migrations :=
  { s with
    table := s.clean version
    committed := s.committed ++ [version]
    current := some ({ run with applied := run.applied ++ [version] }, .applying rest) }

/-- Each run holds the lock from its start to its end. Files change and rows are repaired between runs:
a dirty row is removed, or its script is completed by hand and the row cleaned with it. -/
def step : MigrationStep → Option Migrations
  | .start => if s.current.isNone then some { s with current := some ({}, .locked) } else none
  | .select rows => match s.current with
    | some (run, .locked) => if rows.Perm s.table.rows then some (s.select sha256 run rows) else none
    | _ => none
  | .check => match s.current with
    | some (run, .checking []) => some { s with current := some (run, .applying (pending run)) }
    | some (run, .checking (row :: rest)) => some (s.check run row rest)
    | _ => none
  | .insert => match s.current with
    | some (run, .applying (file :: rest)) => some (s.insert run file rest)
    | _ => none
  | .execute => match s.current with
    | some (run, .executing version rest) => some (s.execute run version rest)
    | _ => none
  | .breaks outcome => match s.current with
    | some (run, _) => if outcome = .returned then none else some (s.ends run outcome)
    | none => none
  | .returns => match s.current with
    | some (run, .applying []) => some (s.ends run .returned)
    | _ => none
  | .edit directory => if s.current.isNone then some { s with directory } else none
  | .discard version =>
    if s.current.isNone ∧ mark s.table version = some true then some { s with table := s.table.erase version } else none
  | .finish version =>
    if s.current.isNone ∧ mark s.table version = some true then
      some { s with table := s.clean version, committed := s.committed ++ [version] }
    else none

end Migrations
end

namespace Migrations

/-- The table and the scripts agree. -/
structure Agrees (s : Migrations) : Prop where
  once : s.committed.Nodup
  clean : ∀ version, mark s.table version = some false ↔ version ∈ s.committed

/-- Before the first run; the table may hold rows already, with checksums or without. -/
structure Initial (s : Migrations) : Prop extends Agrees s where
  idle : s.current = none
  fresh : s.runs = []

end Migrations

/-- The checksum recorded for the row is that of the file. -/
def MigrationRun.Matches (run : MigrationRun) (row : MigrationRow) : Prop :=
  ∀ expected ∈ run.checksums.lookup row.version, ∀ recorded ∈ row.checksum, recorded = expected

/-- The run applies scripts in the order of their names, and only if all rows match. -/
structure MigrationRun.Orderly (run : MigrationRun) : Prop where
  rising : run.applied.Pairwise (· < ·)
  matching : run.applied ≠ [] → ∀ row ∈ run.rows, run.Matches row

def MigrationStep.Repairs (version : String) : MigrationStep → Prop
  | .discard other | .finish other => other = version
  | _ => False

/-! What the table says after each statement. -/

theorem mark_mapRows (table : Table MigrationRow.version) (f : MigrationRow → MigrationRow)
    (hf : ∀ row, (f row).version = row.version) (version : String) :
    mark (table.mapRows f hf) version = (table.get? version).map fun row => (f row).dirty := by
  rw [mark, Table.get?_mapRows, Option.map_map]
  rfl

theorem mark_adopt (s : Migrations) (version checksum other : String) :
    mark (s.adopt version checksum) other = mark s.table other := by
  rw [Migrations.adopt, mark_mapRows]
  congr 1
  funext row
  split <;> rfl

theorem mark_clean (s : Migrations) (version other : String) :
    mark (s.clean version) other = if version = other then (mark s.table other).map fun _ => false else mark s.table other := by
  rw [Migrations.clean, mark_mapRows, mark]
  cases hget : s.table.get? other with
  | none => simp
  | some row =>
    have hversion : row.version = other := Table.key_of_get? hget
    by_cases h : version = other
    · simp [h, hversion]
    · simp [h, hversion, Ne.symm h]

theorem mark_put (table : Table MigrationRow.version) (row : MigrationRow) (version : String) :
    mark (table.put row) version = if row.version = version then some row.dirty else mark table version := by
  rw [mark, Table.get?_put]
  split <;> rfl

theorem mark_erase (table : Table MigrationRow.version) (version other : String) :
    mark (table.erase version) other = if version = other then none else mark table other := by
  rw [mark, Table.get?_erase]
  split <;> rfl

theorem exists_dirty {table : Table MigrationRow.version} {version : String} (h : mark table version = some true) :
    ∃ row ∈ table.rows, row.dirty = true := by
  obtain ⟨row, hrow, hdirty⟩ := map_eq_some_iff.mp h
  exact ⟨row, Table.mem_of_get? hrow, hdirty⟩

theorem mark_of_mem {table : Table MigrationRow.version} {row : MigrationRow} (h : row ∈ table.rows) :
    mark table row.version = some row.dirty := by
  rw [mark, Table.get?_of_mem h]
  rfl

/-! The files of the directory. -/

theorem sqlPaths_rising (directory : Table MigrationFile.name) :
    ((sqlPaths directory).map MigrationFile.name).Pairwise (· < ·) := by
  have : Std.Total fun a b : MigrationFile => a.name ≤ b.name := ⟨fun a b => le_total a.name b.name⟩
  have : IsTrans MigrationFile fun a b => a.name ≤ b.name := ⟨fun _ _ _ => le_trans⟩
  have hsorted : (sqlPaths directory).Pairwise fun a b => a.name ≤ b.name := pairwise_insertionSort _ _
  have hnodup : ((sqlPaths directory).map MigrationFile.name).Nodup := by
    refine (((perm_insertionSort _ _).map _).nodup_iff).mpr ?_
    exact directory.nodup.sublist (filter_sublist.map _)
  rw [pairwise_map]
  exact (hsorted.and (pairwise_map.mp hnodup)).imp fun h => lt_of_le_of_ne h.1 h.2

theorem names_checksumsOf {sha256 : Bytes → String} {directory : Table MigrationFile.name}
    {checksums : List (String × String)} (h : checksumsOf sha256 directory = some checksums) :
    checksums.map Prod.fst = (sqlPaths directory).map MigrationFile.name := by
  unfold checksumsOf at h
  generalize sqlPaths directory = files at h ⊢
  induction files generalizing checksums with
  | nil =>
    obtain rfl := Option.some.inj h
    rfl
  | cons file files ih =>
    rw [mapM_cons] at h
    obtain ⟨entry, hentry, h⟩ := bind_eq_some_iff.mp h
    obtain ⟨rest, hrest, h⟩ := bind_eq_some_iff.mp h
    obtain ⟨bytes, -, rfl⟩ := map_eq_some_iff.mp hentry
    obtain rfl := Option.some.inj h
    rw [map_cons, map_cons, ih hrest]

/-! What a run has established where it stands. -/

section
variable (sha256 : Bytes → String)
namespace Migrations

/-- All rows match, and each file is clean or still to come, in the order of the names. -/
structure Ready (s : Migrations) (run : MigrationRun) (coming : List String) : Prop where
  files : checksumsOf sha256 s.directory = some run.checksums
  matching : ∀ row ∈ run.rows, run.Matches row
  rising : (run.applied ++ coming).Pairwise (· < ·)
  covered : ∀ file ∈ run.checksums, file.1 ∈ coming ∨ mark s.table file.1 = some false

/-- At a row: nothing is applied yet, no row is dirty, and the rows passed match. -/
structure Checking (s : Migrations) (run : MigrationRun) (rest : List MigrationRow) : Prop where
  files : checksumsOf sha256 s.directory = some run.checksums
  unapplied : run.applied = []
  undirty : ∀ version, mark s.table version ≠ some true
  known : ∀ version ∈ run.rows.map MigrationRow.version, (mark s.table version).isSome
  passed : ∀ row ∈ run.rows, row ∈ rest ∨ run.Matches row

/-- Behind the row of its script, the only dirty one. -/
structure Executing (s : Migrations) (run : MigrationRun) (version : String) (coming : List String) : Prop where
  ready : s.Ready sha256 run (version :: coming)
  dirty : mark s.table version = some true
  others : ∀ other, mark s.table other = some true → other = version

def Stands (s : Migrations) (run : MigrationRun) : MigrationPhase → Prop
  | .locked => run = {}
  | .checking rest => s.Checking sha256 run rest
  | .applying rest => s.Ready sha256 run (rest.map Prod.fst) ∧ ∀ version, mark s.table version ≠ some true
  | .executing version rest => s.Executing sha256 run version (rest.map Prod.fst)

structure Kept (s : Migrations) : Prop extends Agrees s where
  runs : ∀ ended ∈ s.runs, ended.1.Orderly
  current : ∀ run phase, s.current = some (run, phase) → s.Stands sha256 run phase

variable {sha256} {s : Migrations}

theorem Initial.kept (h : Initial s) : Kept sha256 s :=
  ⟨h.toAgrees, by simp [h.fresh], by simp [h.idle]⟩

variable {run : MigrationRun} {rest : List (String × String)} {version : String} {s' : Migrations}

theorem Ready.orderly {coming : List String} (h : s.Ready sha256 run coming) : run.Orderly :=
  ⟨(pairwise_append.mp h.rising).1, fun _ => h.matching⟩

theorem Stands.orderly (phase : MigrationPhase) (h : s.Stands sha256 run phase) : run.Orderly := by
  cases phase with
  | locked =>
    obtain rfl : run = {} := h
    exact ⟨List.Pairwise.nil, fun hne => absurd rfl hne⟩
  | checking rest => exact ⟨by simp [h.unapplied], fun hne => absurd h.unapplied hne⟩
  | applying rest => exact h.1.orderly
  | executing version rest => exact h.ready.orderly

theorem Kept.ends (h : Kept sha256 s) (hrun : run.Orderly) (outcome : MigrationOutcome) :
    Kept sha256 (s.ends run outcome) := by
  refine ⟨⟨h.once, h.clean⟩, fun ended hended => ?_, by simp [Migrations.ends]⟩
  obtain hended | hended := mem_append.mp hended
  · exact h.runs ended hended
  · rw [mem_singleton.mp hended]
    exact hrun

theorem Kept.moved (h : Kept sha256 s) (phase : MigrationPhase) (hp : s.Stands sha256 run phase) :
    Kept sha256 { s with current := some (run, phase) } := by
  refine ⟨⟨h.once, h.clean⟩, h.runs, fun run' phase' hcurrent => ?_⟩
  obtain ⟨rfl, rfl⟩ := Prod.mk.inj (Option.some.inj hcurrent)
  cases phase with
  | locked => exact hp
  | checking rest => exact ⟨hp.files, hp.unapplied, hp.undirty, hp.known, hp.passed⟩
  | applying rest => exact ⟨⟨hp.1.files, hp.1.matching, hp.1.rising, hp.1.covered⟩, hp.2⟩
  | executing version rest =>
    exact ⟨⟨hp.ready.files, hp.ready.matching, hp.ready.rising, hp.ready.covered⟩, hp.dirty, hp.others⟩

/-! One step. -/

theorem Kept.select {rows : List MigrationRow} (h : Kept sha256 s) (hrun : run = {})
    (hrows : rows.Perm s.table.rows) : Kept sha256 (s.select sha256 run rows) := by
  subst hrun
  unfold Migrations.select
  cases hfiles : checksumsOf sha256 s.directory with
  | none => exact h.ends ⟨List.Pairwise.nil, fun hne => absurd rfl hne⟩ _
  | some checksums =>
    simp only [elim_some]
    split
    · exact h.ends ⟨List.Pairwise.nil, fun hne => absurd rfl hne⟩ _
    · rename_i hclean
      refine h.moved (.checking rows) ⟨hfiles, rfl, fun version hdirty => ?_, fun version hversion => ?_, fun row hrow => Or.inl hrow⟩
      · obtain ⟨row, hrow, hdirty⟩ := exists_dirty hdirty
        exact hclean (List.any_eq_true.mpr ⟨row, hrows.mem_iff.mpr hrow, hdirty⟩)
      · obtain ⟨row, hrow, rfl⟩ := List.mem_map.mp hversion
        rw [mark_of_mem (hrows.mem_iff.mp hrow)]
        rfl

theorem Kept.check {row : MigrationRow} {rest : List MigrationRow} (h : Kept sha256 s)
    (hp : s.Checking sha256 run (row :: rest)) : Kept sha256 (s.check run row rest) := by
  have horderly : run.Orderly := Stands.orderly (.checking (row :: rest)) hp
  have hpassed : run.Matches row → ∀ other ∈ run.rows, other ∈ rest ∨ run.Matches other := by
    intro hrow other hother
    obtain hmem | hmatches := hp.passed other hother
    · obtain rfl | hmem := mem_cons.mp hmem
      · exact Or.inr hrow
      · exact Or.inl hmem
    · exact Or.inr hmatches
  unfold Migrations.check
  split
  · rename_i hnone
    exact h.moved (.checking rest)
      ⟨hp.files, hp.unapplied, hp.undirty, hp.known, hpassed (by simp [MigrationRun.Matches, hnone])⟩
  · rename_i expected recorded hexpected hrecorded
    split
    · exact h.ends horderly _
    · rename_i heq
      have hmatches : run.Matches row := by
        simp [MigrationRun.Matches, hexpected, hrecorded, not_not.mp heq]
      exact h.moved (.checking rest) ⟨hp.files, hp.unapplied, hp.undirty, hp.known, hpassed hmatches⟩
  · rename_i expected hexpected hrecorded
    have hadopted : Kept sha256 { s with table := s.adopt row.version expected, current := none } :=
      ⟨⟨h.once, fun version => by rw [mark_adopt, h.clean]⟩, h.runs, by simp⟩
    refine hadopted.moved (.checking rest)
      ⟨hp.files, hp.unapplied, fun version => ?_, fun version hversion => ?_, hpassed (by simp [MigrationRun.Matches, hrecorded])⟩
    · rw [mark_adopt]
      exact hp.undirty version
    · rw [mark_adopt]
      exact hp.known version hversion

/-- Behind the last row the pending files are exactly those still to come. -/
theorem Checking.ready (hp : s.Checking sha256 run []) : s.Ready sha256 run ((pending run).map Prod.fst) := by
  refine ⟨hp.files, fun row hrow => (hp.passed row hrow).resolve_left (by simp), ?_, fun file hfile => ?_⟩
  · rw [hp.unapplied, nil_append]
    have hrising : (run.checksums.map Prod.fst).Pairwise (· < ·) := by
      rw [names_checksumsOf hp.files]
      exact sqlPaths_rising _
    exact hrising.sublist (filter_sublist.map _)
  · by_cases hknown : file.1 ∈ run.rows.map MigrationRow.version
    · obtain ⟨dirty, hdirty⟩ := isSome_iff_exists.mp (hp.known file.1 hknown)
      refine Or.inr ?_
      cases dirty with
      | false => exact hdirty
      | true => exact absurd hdirty (hp.undirty file.1)
    · exact Or.inl (List.mem_map_of_mem (mem_filter.mpr ⟨hfile, decide_eq_true hknown⟩))

theorem Kept.insert {file : String × String} (h : Kept sha256 s)
    (hp : s.Stands sha256 run (.applying (file :: rest))) : Kept sha256 (s.insert run file rest) := by
  obtain ⟨hready, hundirty⟩ := hp
  unfold Migrations.insert
  split
  · exact h.ends hready.orderly _
  · rename_i hfree
    have hnone : mark s.table file.1 = none := by
      rw [mark, map_eq_none_iff]
      simpa using hfree
    have hput (version : String) : mark (s.table.put ⟨file.1, some file.2, true⟩) version =
        if file.1 = version then some true else mark s.table version := mark_put _ _ version
    have hinserted : Kept sha256 { s with table := s.table.put ⟨file.1, some file.2, true⟩, current := none } := by
      refine ⟨⟨h.once, fun version => ?_⟩, h.runs, by simp⟩
      rw [hput, ← h.clean]
      split
      · rename_i heq
        simp [← heq, hnone]
      · rfl
    refine hinserted.moved (.executing file.1 rest)
      ⟨⟨hready.files, hready.matching, hready.rising, fun other hother => ?_⟩, by rw [hput, if_pos rfl], fun other hother => ?_⟩
    · obtain hmem | hclean := hready.covered other hother
      · exact Or.inl hmem
      · refine Or.inr ?_
        rw [hput, if_neg, hclean]
        intro heq
        simp [← heq, hnone] at hclean
    · rw [hput] at hother
      split at hother
      · rename_i heq
        exact heq.symm
      · exact absurd hother (hundirty other)

theorem Agrees.commit (h : Agrees s) (hdirty : mark s.table version = some true) :
    Agrees { s with table := s.clean version, committed := s.committed ++ [version], current := none } := by
  have hnew : version ∉ s.committed := by
    intro hmem
    simp [(h.clean version).mpr hmem] at hdirty
  refine ⟨?_, fun other => ?_⟩
  · refine nodup_append.mpr ⟨h.once, by simp, fun a ha b hb heq => hnew ?_⟩
    rw [← mem_singleton.mp hb, ← heq]
    exact ha
  · rw [mark_clean, mem_append, ← h.clean, mem_singleton]
    split
    · rename_i heq
      simp [← heq, hdirty]
    · rename_i hne
      simp [Ne.symm hne]

theorem Kept.execute (h : Kept sha256 s) (hp : s.Executing sha256 run version (rest.map Prod.fst)) :
    Kept sha256 (s.execute run version rest) := by
  have hcommitted : Kept sha256
      { s with table := s.clean version, committed := s.committed ++ [version], current := none } :=
    ⟨h.toAgrees.commit hp.dirty, h.runs, by simp⟩
  refine hcommitted.moved (.applying rest) ⟨⟨hp.ready.files, hp.ready.matching, ?_, fun file hfile => ?_⟩, ?_⟩
  · rw [append_assoc]
    exact hp.ready.rising
  · rw [mark_clean]
    obtain hmem | hclean := hp.ready.covered file hfile
    · obtain heq | hmem := mem_cons.mp hmem
      · right
        simp [heq, hp.dirty]
      · exact Or.inl hmem
    · right
      simp [hclean]
  · intro other
    rw [mark_clean]
    split
    · simp
    · rename_i hne
      exact fun hother => hne (hp.others other hother).symm

theorem Kept.step {a : MigrationStep} (h : Kept sha256 s) (ha : s.step sha256 a = some s') : Kept sha256 s' := by
  cases a with
  | start =>
    simp only [Migrations.step] at ha
    split at ha
    · obtain rfl := Option.some.inj ha
      exact h.moved .locked rfl
    · cases ha
  | select rows =>
    simp only [Migrations.step] at ha
    split at ha
    · rename_i run hcurrent
      split at ha
      · rename_i hrows
        obtain rfl := Option.some.inj ha
        exact h.select (h.current _ _ hcurrent) hrows
      · cases ha
    · cases ha
  | check =>
    simp only [Migrations.step] at ha
    split at ha
    · rename_i run hcurrent
      obtain rfl := Option.some.inj ha
      have hp : s.Checking sha256 run [] := h.current _ _ hcurrent
      exact h.moved (.applying (pending run)) ⟨hp.ready, hp.undirty⟩
    · rename_i run row rest hcurrent
      obtain rfl := Option.some.inj ha
      exact h.check (h.current _ _ hcurrent)
    · cases ha
  | insert =>
    simp only [Migrations.step] at ha
    split at ha
    · rename_i run file rest hcurrent
      obtain rfl := Option.some.inj ha
      exact h.insert (h.current _ _ hcurrent)
    · cases ha
  | execute =>
    simp only [Migrations.step] at ha
    split at ha
    · rename_i run version rest hcurrent
      obtain rfl := Option.some.inj ha
      exact h.execute (h.current _ _ hcurrent)
    · cases ha
  | breaks outcome =>
    simp only [Migrations.step] at ha
    split at ha
    · rename_i run phase hcurrent
      split at ha
      · cases ha
      · obtain rfl := Option.some.inj ha
        exact h.ends (Stands.orderly _ (h.current _ _ hcurrent)) _
    · cases ha
  | returns =>
    simp only [Migrations.step] at ha
    split at ha
    · rename_i run hcurrent
      obtain rfl := Option.some.inj ha
      exact h.ends (Stands.orderly _ (h.current _ _ hcurrent)) _
    · cases ha
  | edit directory =>
    simp only [Migrations.step] at ha
    split at ha
    · rename_i hidle
      obtain rfl := Option.some.inj ha
      exact ⟨⟨h.once, h.clean⟩, h.runs, by simp [isNone_iff_eq_none.mp hidle]⟩
    · cases ha
  | discard version =>
    simp only [Migrations.step] at ha
    split at ha
    · rename_i hrepair
      obtain rfl := Option.some.inj ha
      refine ⟨⟨h.once, fun other => ?_⟩, h.runs, by simp [isNone_iff_eq_none.mp hrepair.1]⟩
      rw [mark_erase, ← h.clean]
      split
      · rename_i heq
        simp [← heq, hrepair.2]
      · rfl
    · cases ha
  | finish version =>
    simp only [Migrations.step] at ha
    split at ha
    · rename_i hrepair
      obtain rfl := Option.some.inj ha
      have hagrees := h.toAgrees.commit hrepair.2
      exact ⟨⟨hagrees.once, hagrees.clean⟩, h.runs, by simp [isNone_iff_eq_none.mp hrepair.1]⟩
    · cases ha

/-! A dirty row stops every later run. -/

/-- The row is dirty, and the runs since then have applied nothing and not returned. -/
structure Blocked (version : String) (before : List (MigrationRun × MigrationOutcome)) (s : Migrations) : Prop where
  dirty : mark s.table version = some true
  runs : ∃ later, s.runs = before ++ later ∧ ∀ ended ∈ later, ended.1.applied = [] ∧ ended.2 ≠ .returned
  current : ∀ held ∈ s.current, held = ({}, .locked)

theorem Blocked.ends {before : List (MigrationRun × MigrationOutcome)} {outcome : MigrationOutcome}
    (h : Blocked version before s) (hrun : run.applied = []) (houtcome : outcome ≠ .returned) :
    Blocked version before (s.ends run outcome) := by
  obtain ⟨later, hlater, hall⟩ := h.runs
  refine ⟨h.dirty, ⟨later ++ [(run, outcome)], ?_, fun ended hended => ?_⟩, by simp [Migrations.ends]⟩
  · rw [Migrations.ends, hlater, append_assoc]
  · obtain hended | hended := mem_append.mp hended
    · exact hall ended hended
    · rw [mem_singleton.mp hended]
      exact ⟨hrun, houtcome⟩

theorem Blocked.step {before : List (MigrationRun × MigrationOutcome)} {a : MigrationStep}
    (h : Blocked version before s) (hok : ¬a.Repairs version) (ha : s.step sha256 a = some s') :
    Blocked version before s' := by
  have hlocked {run : MigrationRun} {phase : MigrationPhase} (hcurrent : s.current = some (run, phase)) :
      run = {} ∧ phase = .locked := Prod.mk.inj (h.current (run, phase) hcurrent)
  cases a with
  | start =>
    simp only [Migrations.step] at ha
    split at ha
    · obtain rfl := Option.some.inj ha
      exact ⟨h.dirty, h.runs, by simp⟩
    · cases ha
  | select rows =>
    simp only [Migrations.step] at ha
    split at ha
    · rename_i run hcurrent
      obtain ⟨rfl, -⟩ := hlocked hcurrent
      split at ha
      · rename_i hrows
        obtain rfl := Option.some.inj ha
        unfold Migrations.select
        cases checksumsOf sha256 s.directory with
        | none => exact h.ends rfl (by decide)
        | some checksums =>
          obtain ⟨row, hrow, hdirty⟩ := exists_dirty h.dirty
          have hany : rows.any MigrationRow.dirty = true :=
            List.any_eq_true.mpr ⟨row, hrows.mem_iff.mpr hrow, hdirty⟩
          rw [elim_some, if_pos hany]
          exact h.ends rfl (by decide)
      · cases ha
    · cases ha
  | check =>
    simp only [Migrations.step] at ha
    split at ha
    · rename_i hcurrent
      cases (hlocked hcurrent).2
    · rename_i hcurrent
      cases (hlocked hcurrent).2
    · cases ha
  | insert =>
    simp only [Migrations.step] at ha
    split at ha
    · rename_i hcurrent
      cases (hlocked hcurrent).2
    · cases ha
  | execute =>
    simp only [Migrations.step] at ha
    split at ha
    · rename_i hcurrent
      cases (hlocked hcurrent).2
    · cases ha
  | breaks outcome =>
    simp only [Migrations.step] at ha
    split at ha
    · rename_i run phase hcurrent
      obtain ⟨rfl, -⟩ := hlocked hcurrent
      split at ha
      · cases ha
      · rename_i houtcome
        obtain rfl := Option.some.inj ha
        exact h.ends rfl houtcome
    · cases ha
  | returns =>
    simp only [Migrations.step] at ha
    split at ha
    · rename_i hcurrent
      cases (hlocked hcurrent).2
    · cases ha
  | edit directory =>
    simp only [Migrations.step] at ha
    split at ha
    · obtain rfl := Option.some.inj ha
      exact ⟨h.dirty, h.runs, h.current⟩
    · cases ha
  | discard other =>
    simp only [Migrations.step] at ha
    split at ha
    · obtain rfl := Option.some.inj ha
      refine ⟨?_, h.runs, h.current⟩
      have hother : other ≠ version := hok
      rw [mark_erase, if_neg hother, h.dirty]
    · cases ha
  | finish other =>
    simp only [Migrations.step] at ha
    split at ha
    · obtain rfl := Option.some.inj ha
      refine ⟨?_, h.runs, h.current⟩
      have hother : other ≠ version := hok
      rw [mark_clean, if_neg hother, h.dirty]
    · cases ha

/-! Whole histories. -/

/-- A script that fails or is cut off leaves its row dirty. -/
theorem Kept.broken {outcome : MigrationOutcome} (h : Kept sha256 s)
    (hcurrent : s.current = some (run, .executing version rest)) (ha : s.step sha256 (.breaks outcome) = some s') :
    Blocked version s'.runs s' := by
  have hp : s.Executing sha256 run version (rest.map Prod.fst) := h.current _ _ hcurrent
  simp only [Migrations.step, hcurrent] at ha
  split at ha
  · cases ha
  · obtain rfl := Option.some.inj ha
    exact ⟨hp.dirty, ⟨[], by simp, by simp⟩, by simp [Migrations.ends]⟩

theorem Kept.returned (h : Kept sha256 s) (ha : s.step sha256 .returns = some s') :
    ∀ file ∈ sqlPaths s'.directory, file.name ∈ s'.committed := by
  simp only [Migrations.step] at ha
  split at ha
  · rename_i run hcurrent
    obtain rfl := Option.some.inj ha
    obtain ⟨hready, -⟩ : s.Stands sha256 run (.applying []) := h.current _ _ hcurrent
    intro file hfile
    have hname : file.name ∈ run.checksums.map Prod.fst := by
      rw [names_checksumsOf hready.files]
      exact List.mem_map_of_mem hfile
    obtain ⟨entry, hentry, hname⟩ := List.mem_map.mp hname
    have hclean := (hready.covered entry hentry).resolve_left (by simp)
    rw [← hname]
    exact (h.clean entry.1).mp hclean
  · cases ha

/-- In every history of runs, edits and repairs each script commits at most once; a run applies scripts
in the order of their names, and none if a recorded checksum differs from the file's; a script that
breaks stops all runs until its row is repaired; and a run that returns has left all files committed. -/
theorem migrations_exactly_once (sha256 : Bytes → String) {s₀ s : Migrations} {steps : List MigrationStep}
    (h₀ : Initial s₀) (h : Machine.exec (Migrations.step sha256) s₀ steps = some s) :
    s.committed.Nodup ∧
    (∀ ended ∈ s.runs, ended.1.Orderly) ∧ (∀ held ∈ s.current, held.1.Orderly) ∧
    (∀ run version rest outcome broken, s.current = some (run, .executing version rest) →
      s.step sha256 (.breaks outcome) = some broken →
      ∀ later s', Machine.exec (Migrations.step sha256) broken later = some s' → (∀ a ∈ later, ¬a.Repairs version) →
        Blocked version broken.runs s') ∧
    ∀ s', s.step sha256 .returns = some s' →
      (∀ version, mark s'.table version = some false ↔ version ∈ s'.committed) ∧
      ∀ file ∈ sqlPaths s'.directory, file.name ∈ s'.committed := by
  have hkept : Kept sha256 s := Machine.invariant (fun _ _ _ => Kept.step) h₀.kept h
  refine ⟨hkept.once, hkept.runs, fun held hheld => Stands.orderly _ (hkept.current held.1 held.2 hheld), ?_, ?_⟩
  · intro run version rest outcome broken hcurrent hbreaks later s' hlater hrepairs
    exact Machine.invariant_along (fun _ _ _ => Blocked.step) (hkept.broken hcurrent hbreaks)
      (Machine.along_of_forall later hrepairs broken) hlater
  · exact fun s' hs' => ⟨(hkept.step hs').clean, hkept.returned hs'⟩

/-- A table with a row that has no checksum yet, and a second file that fails, is repaired and applied. -/
def repairedHistory : List MigrationStep :=
  [.start, .select [⟨"001.sql", none, false⟩], .check, .check, .insert, .breaks .raised,
    .start, .select [⟨"001.sql", some "1", false⟩, ⟨"002.sql", some "2", true⟩], .discard "002.sql",
    .start, .select [⟨"001.sql", some "1", false⟩], .check, .check, .insert, .execute]

def twoFiles : Migrations where
  table := Table.empty.put ⟨"001.sql", none, false⟩
  directory := (Table.empty.put ⟨"002.sql", some [0, 1]⟩).put ⟨"001.sql", some [0]⟩
  committed := ["001.sql"]

theorem migrations_exactly_once_repairedHistory :
    ∃ s s', Machine.exec (step fun bytes => if bytes.length = 1 then "1" else "2") twoFiles repairedHistory = some s ∧
      s.committed = ["001.sql", "002.sql"] ∧ s.committed.Nodup ∧
      s.step (fun bytes => if bytes.length = 1 then "1" else "2") .returns = some s' ∧
      ∀ file ∈ sqlPaths s'.directory, file.name ∈ s'.committed := by
  have hrun : ∃ s ∈ Machine.exec (step fun bytes => if bytes.length = 1 then "1" else "2") twoFiles repairedHistory,
      s.committed = ["001.sql", "002.sql"] ∧
      (s.step (fun bytes => if bytes.length = 1 then "1" else "2") .returns).isSome := by
    decide
  obtain ⟨s, hs, hcommitted, hreturns⟩ := hrun
  obtain ⟨s', hs'⟩ := isSome_iff_exists.mp hreturns
  have hclean (version : String) : mark twoFiles.table version = some false ↔ version ∈ twoFiles.committed := by
    rw [twoFiles, mark_put, mem_singleton]
    by_cases h : "001.sql" = version
    · simp [← h]
    · simp [h, Ne.symm h, mark]
  obtain ⟨honce, -, -, -, hreturned⟩ := migrations_exactly_once _ ⟨⟨by decide, hclean⟩, rfl, rfl⟩ hs
  exact ⟨s, s', hs, hcommitted, honce, hs', (hreturned s' hs').2⟩

end Migrations
end
end SelericSwarm.Persistence
