import Mathlib
import SelericSwarm.FileTable
import SelericSwarm.Machine

/-! `LocalBlobStore`: any number of `put`s between their awaits for the next chunk, over one
directory of files, next to what the calls that have come to an end leave behind. -/
open List Option

namespace SelericSwarm
open Keyed

inductive MalwareScanStatus where
  | pending | clean | quarantined | failed | unavailable
  deriving DecidableEq, Repr

/-- The last name of a path and the names before it. -/
structure BlobPath where
  dir : List String
  name : String
  deriving DecidableEq, Repr

namespace BlobPath

/-- `path.with_suffix(path.suffix + suffix)`. -/
def withSuffix (p : BlobPath) (suffix : String) : BlobPath := { p with name := p.name ++ suffix }

def upload (p : BlobPath) : BlobPath := p.withSuffix ".upload"

def quarantine (p : BlobPath) : BlobPath := p.withSuffix ".quarantine"

/-- `path / "/".join(parts)`. -/
def join (p : BlobPath) (parts : List String) : BlobPath :=
  match parts.getLast? with
  | none => p
  | some name => { dir := p.dir ++ p.name :: parts.dropLast, name }

end BlobPath

/-- The names in a path, as `pathlib` reads it. -/
def pathParts (text : List Char) : List String :=
  ((text.splitOn '/').map String.ofList).filter fun part => part ≠ "" ∧ part ≠ "."

/-- `Path(key).name`. -/
def fileName (key : String) : String := (pathParts key.toList).getLast?.getD ""

def stripSlashes (text : List Char) : List Char :=
  ((text.dropWhile (· = '/')).reverse.dropWhile (· = '/')).reverse

/-- `safe_blob_key`, as the names of the key. -/
def safeBlobKey (key : String) : Option (List String) :=
  let normalized := stripSlashes (key.toList.map fun c => if c = '\\' then '/' else c)
  if normalized = [] ∨ ".." ∈ pathParts normalized then none else some (pathParts normalized)

/-- A local store; `scan` is `none` where the scanner raises, and `guessType` is `mimetypes.guess_type`. -/
structure LocalBlobStore (δ : Type) where
  root : BlobPath
  maxSizeBytes : Nat
  allowedMimeTypes : List String
  scan : List UInt8 → Option MalwareScanStatus
  sha256 : List UInt8 → δ
  strip : String → String
  lower : String → String
  guessType : String → Option String

/-- A `put` that waits for its next chunk; of what it has received, its file handle has written
the first `flushed` bytes. -/
structure Upload where
  path : BlobPath
  inode : Nat
  expectedSize : Option Int
  chunks : List (List UInt8) := []
  flushed : Nat := 0

def Upload.received (u : Upload) : List UInt8 := u.chunks.flatten

/-- What a `put` has returned for the chunks it was given. -/
structure BlobWriteResult (δ : Type) where
  path : BlobPath
  chunks : List (List UInt8)
  uri : BlobPath
  sizeBytes : Nat
  checksumSha256 : δ
  status : MalwareScanStatus

/-- A call that has come to an end and has left something behind. -/
inductive BlobDeed (δ : Type) where
  | returned (result : BlobWriteResult δ)
  | cancelled (path : BlobPath) (left : Option (List UInt8))
  | deleted (path : BlobPath)

/-- `puts` are the paths of all `put`s so far; a `put` is known by its place in them. -/
structure BlobState (δ : Type) where
  files : Files BlobPath := {}
  uploads : Dict Nat Upload := .empty
  puts : List BlobPath := []
  deeds : List (BlobDeed δ) := []

/-- `flushes` bounds what the handle writes of what it holds back; `renames` is false where `replace` fails. -/
inductive BlobStep where
  | put (key contentType : String) (expectedSize : Option Int)
  | openFails (key contentType : String) (expectedSize : Option Int)
  | chunk (id : Nat) (bytes : List UInt8) (flushes : Nat)
  | sourceFails (id : Nat)
  | finish (id : Nat) (renames : Bool)
  | cancel (id : Nat)
  | delete (key : String)

namespace LocalBlobStore
variable {δ : Type} (store : LocalBlobStore δ)

/-- `_path`; `resolve` refuses a null character. -/
def path (key : String) : Option BlobPath :=
  if Char.ofNat 0 ∈ key.toList then none else (safeBlobKey key).map store.root.join

def normalizeContentType (contentType : String) : Option String :=
  let cleanType := store.lower (store.strip (String.ofList (contentType.toList.takeWhile (· ≠ ';'))))
  if cleanType = "" ∨ '/' ∉ cleanType.toList then none else some cleanType

/-- `validate_blob_metadata`. -/
def validateMetadata (filename contentType : String) (sizeBytes : Option Int) : Bool :=
  match store.normalizeContentType contentType with
  | none => false
  | some cleanType =>
    cleanType ∈ store.allowedMimeTypes && sizeBytes.all (fun n => 0 ≤ n && n ≤ (store.maxSizeBytes : Int)) &&
      (store.guessType filename).all fun guessed => guessed = "" || guessed = cleanType ||
        !("image/".toList.isPrefixOf cleanType.toList || "text/".toList.isPrefixOf cleanType.toList)

def verifyBlobSize (actualSize : Nat) (expectedSize : Option Int) : Bool :=
  actualSize ≤ store.maxSizeBytes && expectedSize.all fun n => n = (actualSize : Int)

/-- Where a `put` writes, if it gets so far. -/
def destination (key contentType : String) (expectedSize : Option Int) : Option BlobPath :=
  if store.validateMetadata (fileName key) contentType expectedSize then store.path key else none

/-- The handle is closed: what it holds back is written. -/
def close (files : Files BlobPath) (u : Upload) : Files BlobPath :=
  files.write u.inode u.flushed (u.received.drop u.flushed)

/-- The `except` clause of a `put`. -/
def raised (s : BlobState δ) (id : Nat) (u : Upload) : BlobState δ :=
  { s with files := (close s.files u).unlink u.path.upload, uploads := Table.erase s.uploads id }

def onChunk (s : BlobState δ) (id : Nat) (u : Upload) (bytes : List UInt8) (flushes : Nat) : BlobState δ :=
  if bytes = [] then s
  else if store.maxSizeBytes < u.received.length + bytes.length then raised s id u
  else
    let u' := { u with chunks := u.chunks ++ [bytes] }
    let data := (u'.received.drop u.flushed).take flushes
    { s with
      files := s.files.write u.inode u.flushed data
      uploads := s.uploads.set id { u' with flushed := u.flushed + data.length } }

/-- `replace`, where it does not fail. -/
def replace (files : Files BlobPath) (p q : BlobPath) (renames : Bool) : Option (Files BlobPath) :=
  if renames then files.rename p q else none

def finish (s : BlobState δ) (id : Nat) (u : Upload) (renames : Bool) : BlobState δ :=
  let files := close s.files u
  if !store.verifyBlobSize u.received.length u.expectedSize then raised s id u
  else match (files.read u.path.upload).bind store.scan with
    | none => raised s id u
    | some status =>
      let target := if status = .clean then u.path else u.path.quarantine
      match replace files u.path.upload target renames with
      | none => raised s id u
      | some files => { s with
          files
          uploads := Table.erase s.uploads id
          deeds := s.deeds ++ [.returned {
            path := u.path, chunks := u.chunks, uri := target, sizeBytes := u.received.length
            checksumSha256 := store.sha256 u.received, status }] }

def step (s : BlobState δ) : BlobStep → Option (BlobState δ)
  | .put key contentType expectedSize => match store.destination key contentType expectedSize with
    | none => some s
    | some path =>
      let opened := s.files.create path.upload
      some { s with
        files := opened.1
        uploads := s.uploads.set s.puts.length { path, inode := opened.2, expectedSize }
        puts := s.puts ++ [path] }
  | .openFails key contentType expectedSize => match store.destination key contentType expectedSize with
    | none => some s
    | some path => some { s with files := s.files.unlink path.upload }
  | .chunk id bytes flushes => (s.uploads.get? id).map fun u => store.onChunk s id u bytes flushes
  | .sourceFails id => (s.uploads.get? id).map fun u => raised s id u
  | .finish id renames => (s.uploads.get? id).map fun u => store.finish s id u renames
  | .cancel id => (s.uploads.get? id).map fun u =>
    let files := close s.files u
    { s with
      files
      uploads := Table.erase s.uploads id
      deeds := s.deeds ++ [.cancelled u.path (files.read u.path.upload)] }
  | .delete key => match store.path key with
    | none => some s
    | some path => some { s with files := s.files.unlink path, deeds := s.deeds ++ [.deleted path] }

/-- The bytes of `get(key)`. -/
def get (s : BlobState δ) (key : String) : Option (List UInt8) := (store.path key).bind s.files.read

/-- A `put` gets a path to itself: no `put` on the path is in progress, its files beside the path are
the path of no `put` so far nor the other way round, and nothing stands where it writes. -/
def Apart (s : BlobState δ) : BlobStep → Prop
  | .put key contentType expectedSize | .openFails key contentType expectedSize =>
    ∀ path ∈ store.destination key contentType expectedSize,
      (∀ entry ∈ s.uploads.rows, entry.2.path ≠ path) ∧ s.files.read path.upload = none ∧
        ∀ other ∈ s.puts, path ≠ other.upload ∧ path ≠ other.quarantine ∧
          path.upload ≠ other ∧ path.quarantine ≠ other
  | _ => True

instance (s : BlobState δ) : (a : BlobStep) → Decidable (store.Apart s a)
  | .put .. | .openFails .. => inferInstanceAs (Decidable (∀ path ∈ store.destination .., _))
  | .chunk .. | .sourceFails .. | .finish .. | .cancel .. | .delete .. => isTrue trivial

end LocalBlobStore

/-! What the deeds leave under a path: a `put` that raises has left nothing behind. -/

variable {δ : Type}

def BlobDeed.shelve (shelf : BlobPath → Option (List UInt8)) : BlobDeed δ → BlobPath → Option (List UInt8)
  | .returned result, p =>
    if p = (if result.status = .clean then result.path else result.path.quarantine) then some result.chunks.flatten
    else shelf p
  | .cancelled path left, p => if p = path.upload then left else shelf p
  | .deleted path, p => if p = path then none else shelf p

def shelf (deeds : List (BlobDeed δ)) : BlobPath → Option (List UInt8) := deeds.foldl BlobDeed.shelve fun _ => none

theorem shelf_concat (deeds : List (BlobDeed δ)) (deed : BlobDeed δ) :
    shelf (deeds ++ [deed]) = deed.shelve (shelf deeds) := by
  rw [shelf, foldl_append]
  rfl

namespace BlobPath

theorem append_inj {s t : String} {suffix : String} (h : s ++ suffix = t ++ suffix) : s = t := by
  have hlists := congrArg String.toList h
  rw [String.toList_append, String.toList_append] at hlists
  exact String.toList_injective (append_cancel_right hlists)

theorem withSuffix_inj {p q : BlobPath} {suffix : String} (h : p.withSuffix suffix = q.withSuffix suffix) : p = q := by
  obtain ⟨dir, name⟩ := p
  obtain ⟨dir', name'⟩ := q
  simp only [withSuffix, BlobPath.mk.injEq] at h
  obtain ⟨rfl, hname⟩ := h
  obtain rfl := append_inj hname
  rfl

theorem withSuffix_ne (p : BlobPath) {suffix : String} (hs : suffix ≠ "") : p ≠ p.withSuffix suffix := by
  intro h
  have hname := congrArg (fun q : BlobPath => q.name.toList) h
  simp only [withSuffix, String.toList_append, self_eq_append_right] at hname
  exact hs (String.toList_eq_nil_iff.mp hname)

theorem upload_ne_quarantine (p q : BlobPath) : p.upload ≠ q.quarantine := by
  intro h
  have hname := congrArg (fun q : BlobPath => q.name.toList.getLast?) h
  simp [upload, quarantine, withSuffix] at hname

end BlobPath

namespace LocalBlobStore
variable (store : LocalBlobStore δ)

/-- A `put` in progress: its file has what it has flushed, and no other name than its own. -/
structure Writing (s : BlobState δ) (u : Upload) : Prop where
  path_mem : u.path ∈ s.puts
  flushed_le : u.flushed ≤ u.received.length
  held : s.files.held u.inode = u.received.take u.flushed
  bounded : u.inode < s.files.next
  name : ∀ p, s.files.names.get? p = some u.inode → p = u.path.upload
  named : ∀ i, s.files.names.get? u.path.upload = some i → i = u.inode

/-- The handle goes on where it has stopped. -/
theorem Writing.held_write {s : BlobState δ} {u : Upload} (h : Writing s u) (data : List UInt8) :
    (s.files.write u.inode u.flushed data).held u.inode = u.received.take u.flushed ++ data := by
  have hlength : (u.received.take u.flushed).length = u.flushed := length_take_of_le h.flushed_le
  have hend := writeAt_end (u.received.take u.flushed) data
  rw [hlength] at hend
  rw [Files.held_write, if_pos rfl, h.held, hend]

/-- What stands under a path is what the deeds leave there, the files that `put`s write to apart. -/
structure Kept (s : BlobState δ) : Prop where
  writing : ∀ id u, s.uploads.get? id = some u → Writing s u
  ids : ∀ id u, s.uploads.get? id = some u → id < s.puts.length
  paths : ∀ id id' u u', s.uploads.get? id = some u → s.uploads.get? id' = some u' → u.path = u'.path → id = id'
  inodes : ∀ id id' u u', s.uploads.get? id = some u → s.uploads.get? id' = some u' → u.inode = u'.inode → id = id'
  apart : ∀ p ∈ s.puts, ∀ q ∈ s.puts, p ≠ q.upload ∧ p ≠ q.quarantine
  shelved : ∀ p, (∀ id u, s.uploads.get? id = some u → p ≠ u.path.upload) → s.files.read p = shelf s.deeds p
  bare : ∀ id u, s.uploads.get? id = some u → shelf s.deeds u.path.upload = none
  results : ∀ r, .returned r ∈ s.deeds → r.path ∈ s.puts ∧ r.sizeBytes = r.chunks.flatten.length ∧
    r.checksumSha256 = store.sha256 r.chunks.flatten ∧ store.scan r.chunks.flatten = some r.status
  sources : ∀ p bytes, shelf s.deeds p = some bytes →
    (∃ r, .returned r ∈ s.deeds ∧ r.path = p ∧ r.status = .clean ∧ r.chunks.flatten = bytes) ∨
      ∃ q ∈ s.puts, p = q.upload ∨ p = q.quarantine

namespace Kept
variable {store} {s : BlobState δ} {id : Nat} {u : Upload}

theorem initial : Kept store ({} : BlobState δ) := by
  refine ⟨by simp, by simp, by simp, by simp, by simp, fun _ _ => rfl, by simp, by simp, ?_⟩
  intro p bytes h
  simp [shelf] at h

section
variable (h : Kept store s) (hu : s.uploads.get? id = some u)
include h hu

theorem uploads_apart {id' : Nat} {u' : Upload} (hu' : s.uploads.get? id' = some u') (hne : id' ≠ id) :
    u'.path.upload ≠ u.path.upload :=
  fun he => hne (h.paths id' id u' u hu' hu (BlobPath.withSuffix_inj he))

theorem inodes_apart {id' : Nat} {u' : Upload} (hu' : s.uploads.get? id' = some u') (hne : id' ≠ id) :
    u.inode ≠ u'.inode :=
  fun he => hne (h.inodes id' id u' u hu' hu he.symm)

theorem held_close : (close s.files u).held u.inode = u.received := by
  rw [close, (h.writing id u hu).held_write, take_append_drop]

theorem read_close_of_ne {p : BlobPath} (hp : p ≠ u.path.upload) : (close s.files u).read p = s.files.read p :=
  Files.read_write_of_ne (fun he => hp ((h.writing id u hu).name p he)) _ _

theorem read_close_of_free {p : BlobPath} (hne : p ≠ u.path.upload)
    (hp : ∀ id' u', id' ≠ id → s.uploads.get? id' = some u' → p ≠ u'.path.upload) :
    (close s.files u).read p = shelf s.deeds p := by
  rw [h.read_close_of_ne hu hne]
  refine h.shelved p fun id' u' hu' => ?_
  by_cases hid : id' = id
  · subst hid
    obtain rfl := Option.some.inj (hu.symm.trans hu')
    exact hne
  · exact hp id' u' hid hu'

theorem read_close {contents : List UInt8} (hread : (close s.files u).read u.path.upload = some contents) :
    contents = u.received := by
  obtain ⟨i, hi, rfl⟩ := Files.read_eq_some.mp hread
  rw [(h.writing id u hu).named i hi, h.held_close hu]

end

/-- A `put` comes to an end: the other `put`s keep their files, and `deeds` say what is left. -/
theorem ended (h : Kept store s) {files : Files BlobPath} {deeds : List (BlobDeed δ)}
    (hheld : ∀ id' u', id' ≠ id → s.uploads.get? id' = some u' → files.held u'.inode = s.files.held u'.inode)
    (hnext : files.next = s.files.next)
    (hnames : ∀ id' u', id' ≠ id → s.uploads.get? id' = some u' → ∀ p, files.names.get? p = some u'.inode →
      s.files.names.get? p = some u'.inode)
    (hnamed : ∀ id' u', id' ≠ id → s.uploads.get? id' = some u' → ∀ i,
      files.names.get? u'.path.upload = some i → s.files.names.get? u'.path.upload = some i)
    (hshelved : ∀ p, (∀ id' u', id' ≠ id → s.uploads.get? id' = some u' → p ≠ u'.path.upload) →
      files.read p = shelf deeds p)
    (hbare : ∀ id' u', id' ≠ id → s.uploads.get? id' = some u' → shelf deeds u'.path.upload = none)
    (hresults : ∀ r, .returned r ∈ deeds → r.path ∈ s.puts ∧ r.sizeBytes = r.chunks.flatten.length ∧
      r.checksumSha256 = store.sha256 r.chunks.flatten ∧ store.scan r.chunks.flatten = some r.status)
    (hsources : ∀ p bytes, shelf deeds p = some bytes →
      (∃ r, .returned r ∈ deeds ∧ r.path = p ∧ r.status = .clean ∧ r.chunks.flatten = bytes) ∨
        ∃ q ∈ s.puts, p = q.upload ∨ p = q.quarantine) :
    Kept store { s with files, deeds, uploads := Table.erase s.uploads id } := by
  have hrest : ∀ id' u', Dict.get? (Table.erase s.uploads id) id' = some u' →
      id' ≠ id ∧ s.uploads.get? id' = some u' := by
    intro id' u' hu'
    rw [Dict.get?_erase] at hu'
    split at hu'
    · cases hu'
    next hne => exact ⟨Ne.symm hne, hu'⟩
  have hback : ∀ id' u', id' ≠ id → s.uploads.get? id' = some u' →
      Dict.get? (Table.erase s.uploads id) id' = some u' := by
    intro id' u' hne hu'
    rw [Dict.get?_erase, if_neg (Ne.symm hne), hu']
  refine ⟨?_, ?_, ?_, ?_, h.apart, ?_, ?_, hresults, hsources⟩
  · intro id' u' hu'
    obtain ⟨hne, hu'⟩ := hrest id' u' hu'
    have hw := h.writing id' u' hu'
    exact ⟨hw.path_mem, hw.flushed_le, (hheld id' u' hne hu').trans hw.held, hnext ▸ hw.bounded,
      fun p hp => hw.name p (hnames id' u' hne hu' p hp), fun i hi => hw.named i (hnamed id' u' hne hu' i hi)⟩
  · exact fun id' u' hu' => h.ids id' u' (hrest id' u' hu').2
  · exact fun i j v v' hv hv' => h.paths i j v v' (hrest i v hv).2 (hrest j v' hv').2
  · exact fun i j v v' hv hv' => h.inodes i j v v' (hrest i v hv).2 (hrest j v' hv').2
  · exact fun p hp => hshelved p fun id' u' hne hu' => hp id' u' (hback id' u' hne hu')
  · exact fun id' u' hu' => hbare id' u' (hrest id' u' hu').1 (hrest id' u' hu').2

theorem raised (h : Kept store s) (hu : s.uploads.get? id = some u) : Kept store (raised s id u) := by
  refine h.ended ?_ rfl ?_ ?_ ?_ (fun id' u' _ hu' => h.bare id' u' hu') h.results h.sources
  · intro id' u' hne hu'
    exact (Files.held_write ..).trans (if_neg (h.inodes_apart hu hu' hne))
  · intro id' u' hne hu' p hp
    rw [Files.names_unlink] at hp
    split at hp
    · cases hp
    · exact hp
  · intro id' u' hne hu' i hi
    rw [Files.names_unlink, if_neg (h.uploads_apart hu hu' hne).symm] at hi
    exact hi
  · intro p hp
    rw [Files.read_unlink]
    split
    next he => rw [← he, h.bare id u hu]
    next hne => exact h.read_close_of_free hu (Ne.symm hne) hp

section
variable (h : Kept store s) (hu : s.uploads.get? id = some u)
include h hu

theorem replaced {files : Files BlobPath} {target : BlobPath} {status : MalwareScanStatus} {digest : δ}
    (hsize : digest = store.sha256 u.received)
    (hscan : ((close s.files u).read u.path.upload).bind store.scan = some status)
    (htarget : target = if status = .clean then u.path else u.path.quarantine)
    (hfiles : (close s.files u).rename u.path.upload target = some files) :
    Kept store { s with
      files, uploads := Table.erase s.uploads id
      deeds := s.deeds ++ [.returned {
        path := u.path, chunks := u.chunks, uri := target, sizeBytes := u.received.length, checksumSha256 := digest
        status }] } := by
  obtain ⟨contents, hread, hscan⟩ := bind_eq_some_iff.mp hscan
  obtain rfl := h.read_close hu hread
  obtain ⟨i, hi, hnames, hheld, hnext⟩ := Files.rename_cases hfiles
  obtain rfl := (h.writing id u hu).named i hi
  have hmem := (h.writing id u hu).path_mem
  have hside : ∀ q ∈ s.puts, q.upload ≠ target := by
    intro q hq he
    rw [htarget] at he
    split at he
    · exact (h.apart u.path hmem q hq).1 he.symm
    · exact BlobPath.upload_ne_quarantine _ _ he
  have hshelf : ∀ p, shelf (s.deeds ++ [.returned {
      path := u.path, chunks := u.chunks, uri := target, sizeBytes := u.received.length, checksumSha256 := digest
      status }]) p = if p = target then some u.received else shelf s.deeds p := by
    intro p
    rw [shelf_concat, htarget]
    rfl
  refine h.ended ?_ hnext ?_ ?_ ?_ ?_ ?_ ?_
  · intro id' u' hne hu'
    rw [hheld]
    exact (Files.held_write ..).trans (if_neg (h.inodes_apart hu hu' hne))
  · intro id' u' hne hu' p hp
    rw [hnames] at hp
    split at hp
    · exact absurd (Option.some.inj hp) (h.inodes_apart hu hu' hne)
    · split at hp
      · cases hp
      · exact hp
  · intro id' u' hne hu' i hi
    rw [hnames, if_neg (hside _ (h.writing id' u' hu').path_mem).symm, if_neg (h.uploads_apart hu hu' hne).symm] at hi
    exact hi
  · intro p hp
    rw [hshelf, Files.read_rename hfiles]
    by_cases ht : p = target
    · rw [if_pos ht.symm, if_pos ht, hread]
    · rw [if_neg (Ne.symm ht), if_neg ht]
      split
      next he => rw [← he, h.bare id u hu]
      next hne => exact h.read_close_of_free hu (Ne.symm hne) hp
  · intro id' u' hne hu'
    rw [hshelf, if_neg (hside _ (h.writing id' u' hu').path_mem)]
    exact h.bare id' u' hu'
  · intro r hr
    obtain hr | hr := mem_append.mp hr
    · exact h.results r hr
    · obtain rfl := BlobDeed.returned.inj (mem_singleton.mp hr)
      exact ⟨hmem, rfl, hsize, hscan⟩
  · intro p bytes hp
    rw [hshelf] at hp
    split at hp
    next ht =>
      obtain rfl := Option.some.inj hp
      by_cases hclean : status = .clean
      · rw [htarget, if_pos hclean] at ht
        exact Or.inl ⟨_, mem_append_right _ (mem_singleton.mpr rfl), ht.symm, hclean, rfl⟩
      · rw [htarget, if_neg hclean] at ht
        exact Or.inr ⟨u.path, hmem, Or.inr ht⟩
    next =>
      refine (h.sources p bytes hp).imp_left ?_
      rintro ⟨r, hr, hsource⟩
      exact ⟨r, mem_append_left _ hr, hsource⟩

theorem cancelled :
    Kept store { s with
      files := close s.files u, uploads := Table.erase s.uploads id
      deeds := s.deeds ++ [.cancelled u.path ((close s.files u).read u.path.upload)] } := by
  have hshelf : ∀ p, shelf (s.deeds ++ [.cancelled u.path ((close s.files u).read u.path.upload)]) p =
      if p = u.path.upload then (close s.files u).read u.path.upload else shelf s.deeds p := by
    intro p
    rw [shelf_concat]
    rfl
  refine h.ended ?_ rfl (fun _ _ _ _ _ hp => hp) (fun _ _ _ _ _ hi => hi) ?_ ?_ ?_ ?_
  · intro id' u' hne hu'
    exact (Files.held_write ..).trans (if_neg (h.inodes_apart hu hu' hne))
  · intro p hp
    rw [hshelf]
    split
    next he => rw [he]
    next hne => exact h.read_close_of_free hu hne hp
  · intro id' u' hne hu'
    rw [hshelf, if_neg (h.uploads_apart hu hu' hne)]
    exact h.bare id' u' hu'
  · intro r hr
    obtain hr | hr := mem_append.mp hr
    · exact h.results r hr
    · cases mem_singleton.mp hr
  · intro p bytes hp
    rw [hshelf] at hp
    split at hp
    next he => exact Or.inr ⟨u.path, (h.writing id u hu).path_mem, Or.inl he⟩
    next =>
      refine (h.sources p bytes hp).imp_left ?_
      rintro ⟨r, hr, hsource⟩
      exact ⟨r, mem_append_left _ hr, hsource⟩

theorem finish (renames : Bool) : Kept store (store.finish s id u renames) := by
  unfold LocalBlobStore.finish
  dsimp only
  split
  · exact h.raised hu
  · split
    · exact h.raised hu
    next status hscan =>
      split
      · exact h.raised hu
      next files hfiles =>
        unfold replace at hfiles
        split at hfiles
        · exact h.replaced hu rfl hscan rfl hfiles
        · cases hfiles

theorem chunk (bytes : List UInt8) (flushes : Nat) : Kept store (store.onChunk s id u bytes flushes) := by
  unfold LocalBlobStore.onChunk
  split
  · exact h
  · split
    · exact h.raised hu
    · generalize hdata : List.take flushes (List.drop u.flushed
        (Upload.received { u with chunks := u.chunks ++ [bytes] })) = data
      have hw := h.writing id u hu
      have hreceived : ∀ n, Upload.received { u with chunks := u.chunks ++ [bytes], flushed := n } =
          u.received ++ bytes := by
        simp [Upload.received]
      have hle : u.flushed + data.length ≤ (u.received ++ bytes).length := by
        have := hw.flushed_le
        rw [← hdata, hreceived u.flushed, length_take, length_drop, length_append]
        omega
      have hflushed : u.received.take u.flushed ++ data = (u.received ++ bytes).take (u.flushed + data.length) := by
        rw [take_add, take_append_of_le_length hw.flushed_le, ← hdata, hreceived u.flushed]
        congr 1
        rw [length_take, take_eq_take_iff]
        simp
      dsimp only
      rw [hdata]
      have hset : ∀ id' u', (s.uploads.set id { u with
          chunks := u.chunks ++ [bytes], flushed := u.flushed + data.length }).get? id' = some u' →
          (id' = id ∧ u' = { u with chunks := u.chunks ++ [bytes], flushed := u.flushed + data.length }) ∨
            (id' ≠ id ∧ s.uploads.get? id' = some u') := by
        intro id' u' hu'
        rw [Dict.get?_set] at hu'
        split at hu'
        next he => exact Or.inl ⟨he.symm, (Option.some.inj hu').symm⟩
        next hne => exact Or.inr ⟨Ne.symm hne, hu'⟩
      -- every entry of the new table comes from one that agrees with it on path and file
      have hold : ∀ id' u', (s.uploads.set id { u with
          chunks := u.chunks ++ [bytes], flushed := u.flushed + data.length }).get? id' = some u' →
          ∃ v, s.uploads.get? id' = some v ∧ v.path = u'.path ∧ v.inode = u'.inode := by
        intro id' u' hu'
        obtain ⟨rfl, rfl⟩ | ⟨-, hv⟩ := hset id' u' hu'
        · exact ⟨u, hu, rfl, rfl⟩
        · exact ⟨u', hv, rfl, rfl⟩
      refine ⟨?_, ?_, ?_, ?_, h.apart, ?_, ?_, h.results, h.sources⟩
      · intro id' u' hu'
        obtain ⟨rfl, rfl⟩ | ⟨hne, hv⟩ := hset id' u' hu'
        · refine ⟨hw.path_mem, ?_, ?_, hw.bounded, hw.name, hw.named⟩
          · exact hle.trans_eq (congrArg List.length (hreceived _).symm)
          · exact (hw.held_write data).trans (hflushed.trans (congrArg _ (hreceived _).symm))
        · have hv' := h.writing id' u' hv
          exact ⟨hv'.path_mem, hv'.flushed_le,
            ((Files.held_write ..).trans (if_neg (h.inodes_apart hu hv hne))).trans hv'.held, hv'.bounded, hv'.name,
            hv'.named⟩
      · intro id' u' hu'
        obtain ⟨v, hv, -, -⟩ := hold id' u' hu'
        exact h.ids id' v hv
      · intro i j v v' hv hv' he
        obtain ⟨x, hx, hpx, -⟩ := hold i v hv
        obtain ⟨y, hy, hpy, -⟩ := hold j v' hv'
        exact h.paths i j x y hx hy (hpx.trans (he.trans hpy.symm))
      · intro i j v v' hv hv' he
        obtain ⟨x, hx, -, hix⟩ := hold i v hv
        obtain ⟨y, hy, -, hiy⟩ := hold j v' hv'
        exact h.inodes i j x y hx hy (hix.trans (he.trans hiy.symm))
      · intro p hp
        have hself := Dict.get?_set_self s.uploads id { u with
          chunks := u.chunks ++ [bytes], flushed := u.flushed + data.length }
        have hself := hp _ _ hself
        have hpu : p ≠ u.path.upload := hself
        rw [Files.read_write_of_ne (fun he => hpu (hw.name p he))]
        refine h.shelved p fun id' u' hu' => ?_
        by_cases hid : id' = id
        · subst hid
          obtain rfl := Option.some.inj (hu.symm.trans hu')
          exact hpu
        · exact hp id' u' (by rw [Dict.get?_set, if_neg (Ne.symm hid), hu'])
      · intro id' u' hu'
        obtain ⟨v, hv, hpv, -⟩ := hold id' u' hu'
        rw [← hpv]
        exact h.bare id' v hv

end

theorem put (h : Kept store s) {path : BlobPath} {expectedSize : Option Int}
    (hbusy : ∀ id u, s.uploads.get? id = some u → u.path ≠ path) (hread : s.files.read path.upload = none)
    (hputs : ∀ other ∈ s.puts, path ≠ other.upload ∧ path ≠ other.quarantine ∧ path.upload ≠ other ∧
      path.quarantine ≠ other) :
    Kept store { s with
      files := (s.files.create path.upload).1
      uploads := s.uploads.set s.puts.length { path, inode := (s.files.create path.upload).2, expectedSize }
      puts := s.puts ++ [path] } := by
  have hnone : s.files.names.get? path.upload = none := map_eq_none_iff.mp hread
  rw [Files.create_of_none hnone]
  have hset : ∀ id' u', (s.uploads.set s.puts.length { path, inode := s.files.next, expectedSize }).get? id' = some u' →
      (id' = s.puts.length ∧ u' = { path, inode := s.files.next, expectedSize }) ∨ s.uploads.get? id' = some u' := by
    intro id' u' hu'
    rw [Dict.get?_set] at hu'
    split at hu'
    next he => exact Or.inl ⟨he.symm, (Option.some.inj hu').symm⟩
    next => exact Or.inr hu'
  have hback : ∀ id' u', s.uploads.get? id' = some u' →
      (s.uploads.set s.puts.length { path, inode := s.files.next, expectedSize }).get? id' = some u' := by
    intro id' u' hu'
    have := h.ids id' u' hu'
    rw [Dict.get?_set, if_neg (by omega), hu']
  have hupload : ∀ id u, s.uploads.get? id = some u → path.upload ≠ u.path.upload :=
    fun id u hu he => hbusy id u hu (BlobPath.withSuffix_inj he).symm
  have hmem : ∀ p ∈ s.puts, p ∈ s.puts ++ [path] := fun p hp => mem_append_left _ hp
  refine ⟨?_, ?_, ?_, ?_, ?_, ?_, ?_, ?_, ?_⟩
  · intro id' u' hu'
    obtain ⟨rfl, rfl⟩ | hu' := hset id' u' hu'
    · refine ⟨mem_append_right _ (mem_singleton.mpr rfl), Nat.zero_le _, ?_, Nat.lt_succ_self _, ?_, ?_⟩
      · exact Files.held_add.trans (if_pos rfl)
      · intro p hp
        rw [Files.names_add] at hp
        split at hp
        next he => exact he.symm
        next => exact absurd (s.files.bounded p _ hp) (Nat.lt_irrefl _)
      · intro i hi
        rw [Files.names_add, if_pos rfl] at hi
        exact (Option.some.inj hi).symm
    · have hw := h.writing id' u' hu'
      have hfresh : s.files.next ≠ u'.inode := by
        have := hw.bounded
        omega
      refine ⟨hmem _ hw.path_mem, hw.flushed_le, (Files.held_add.trans (if_neg hfresh)).trans hw.held,
        hw.bounded.trans (Nat.lt_succ_self _), ?_, ?_⟩
      · intro p hp
        rw [Files.names_add] at hp
        split at hp
        · exact absurd (Option.some.inj hp) hfresh
        · exact hw.name p hp
      · intro i hi
        rw [Files.names_add, if_neg (hupload id' u' hu')] at hi
        exact hw.named i hi
  · intro id' u' hu'
    rw [length_append]
    obtain ⟨rfl, -⟩ | hu' := hset id' u' hu'
    · exact Nat.lt_succ_self _
    · exact (h.ids id' u' hu').trans (Nat.lt_succ_self _)
  · intro i j v v' hv hv' he
    obtain ⟨rfl, rfl⟩ | hv := hset i v hv <;> obtain ⟨rfl, rfl⟩ | hv' := hset j v' hv'
    · rfl
    · exact absurd he.symm (hbusy j v' hv')
    · exact absurd he (hbusy i v hv)
    · exact h.paths i j v v' hv hv' he
  · intro i j v v' hv hv' he
    obtain ⟨rfl, rfl⟩ | hv := hset i v hv <;> obtain ⟨rfl, rfl⟩ | hv' := hset j v' hv'
    · rfl
    · exact absurd he (Nat.ne_of_gt (h.writing j v' hv').bounded)
    · exact absurd he (Nat.ne_of_lt (h.writing i v hv).bounded)
    · exact h.inodes i j v v' hv hv' he
  · intro p hp₀ q hq₀
    obtain hp | hp := mem_append.mp hp₀ <;> obtain hq | hq := mem_append.mp hq₀
    · exact h.apart p hp q hq
    · obtain rfl := mem_singleton.mp hq
      exact ⟨(hputs p hp).2.2.1.symm, (hputs p hp).2.2.2.symm⟩
    · obtain rfl := mem_singleton.mp hp
      exact ⟨(hputs q hq).1, (hputs q hq).2.1⟩
    · obtain rfl := mem_singleton.mp hp
      obtain rfl := mem_singleton.mp hq
      exact ⟨BlobPath.withSuffix_ne _ (by decide), BlobPath.withSuffix_ne _ (by decide)⟩
  · intro p hp
    have hpath : path.upload ≠ p := (hp s.puts.length _ (Dict.get?_set_self ..)).symm
    rw [Files.read_add_of_ne hpath]
    exact h.shelved p fun id' u' hu' => hp id' u' (hback id' u' hu')
  · intro id' u' hu'
    obtain ⟨rfl, rfl⟩ | hu' := hset id' u' hu'
    · rw [← h.shelved _ hupload, hread]
    · exact h.bare id' u' hu'
  · exact fun r hr => ⟨hmem _ (h.results r hr).1, (h.results r hr).2⟩
  · intro p bytes hp
    refine (h.sources p bytes hp).imp_right ?_
    rintro ⟨q, hq, hside⟩
    exact ⟨q, hmem q hq, hside⟩

theorem unlink (h : Kept store s) {path : BlobPath} (hread : s.files.read path = none) :
    Kept store { s with files := s.files.unlink path } := by
  have hnone : s.files.names.get? path = none := map_eq_none_iff.mp hread
  have hnames : ∀ p, (s.files.unlink path).names.get? p = s.files.names.get? p := by
    intro p
    rw [Files.names_unlink]
    split
    next he => rw [← he, hnone]
    next => rfl
  refine { h with writing := ?_, shelved := ?_ }
  · intro id u hu
    have hw := h.writing id u hu
    exact ⟨hw.path_mem, hw.flushed_le, hw.held, hw.bounded, fun p hp => hw.name p (hnames p ▸ hp),
      fun i hi => hw.named i (hnames _ ▸ hi)⟩
  · intro p hp
    rw [← h.shelved p hp, Files.read, Files.read, hnames]
    rfl

theorem delete (h : Kept store s) (path : BlobPath) :
    Kept store { s with files := s.files.unlink path, deeds := s.deeds ++ [.deleted path] } := by
  have hshelf : ∀ p, shelf (s.deeds ++ [.deleted path]) p = if p = path then none else shelf s.deeds p := by
    intro p
    rw [shelf_concat]
    rfl
  have hnames : ∀ p i, (s.files.unlink path).names.get? p = some i → s.files.names.get? p = some i := by
    intro p i hp
    rw [Files.names_unlink] at hp
    split at hp
    · cases hp
    · exact hp
  refine { h with writing := ?_, shelved := ?_, bare := ?_, results := ?_, sources := ?_ }
  · intro id u hu
    have hw := h.writing id u hu
    exact ⟨hw.path_mem, hw.flushed_le, hw.held, hw.bounded, fun p hp => hw.name p (hnames p _ hp),
      fun i hi => hw.named i (hnames _ i hi)⟩
  · intro p hp
    rw [hshelf, Files.read_unlink]
    by_cases he : p = path
    · rw [if_pos he.symm, if_pos he]
    · rw [if_neg (Ne.symm he), if_neg he]
      exact h.shelved p hp
  · intro id u hu
    rw [hshelf]
    split
    · rfl
    · exact h.bare id u hu
  · intro r hr
    obtain hr | hr := mem_append.mp hr
    · exact h.results r hr
    · cases mem_singleton.mp hr
  · intro p bytes hp
    rw [hshelf] at hp
    split at hp
    · cases hp
    · refine (h.sources p bytes hp).imp_left ?_
      rintro ⟨r, hr, hsource⟩
      exact ⟨r, mem_append_left _ hr, hsource⟩

theorem step (h : Kept store s) {a : BlobStep} {s' : BlobState δ} (hapart : store.Apart s a)
    (hs : store.step s a = some s') : Kept store s' := by
  cases a with
  | put key contentType expectedSize =>
    simp only [LocalBlobStore.step] at hs
    cases hpath : store.destination key contentType expectedSize with
    | none =>
      rw [hpath] at hs
      exact Option.some.inj hs ▸ h
    | some path =>
      rw [hpath] at hs
      obtain rfl := Option.some.inj hs
      obtain ⟨hbusy, hread, hputs⟩ := hapart path hpath
      refine h.put ?_ hread hputs
      intro id u hu
      obtain ⟨entry, hentry, rfl⟩ := map_eq_some_iff.mp hu
      exact hbusy entry (Table.mem_of_get? hentry)
  | openFails key contentType expectedSize =>
    simp only [LocalBlobStore.step] at hs
    cases hpath : store.destination key contentType expectedSize with
    | none =>
      rw [hpath] at hs
      exact Option.some.inj hs ▸ h
    | some path =>
      rw [hpath] at hs
      obtain rfl := Option.some.inj hs
      exact h.unlink (hapart path hpath).2.1
  | chunk id bytes flushes =>
    obtain ⟨u, hu, rfl⟩ := map_eq_some_iff.mp hs
    exact h.chunk hu bytes flushes
  | sourceFails id =>
    obtain ⟨u, hu, rfl⟩ := map_eq_some_iff.mp hs
    exact h.raised hu
  | finish id renames =>
    obtain ⟨u, hu, rfl⟩ := map_eq_some_iff.mp hs
    exact h.finish hu renames
  | cancel id =>
    obtain ⟨u, hu, rfl⟩ := map_eq_some_iff.mp hs
    exact h.cancelled hu
  | delete key =>
    simp only [LocalBlobStore.step] at hs
    cases hpath : store.path key with
    | none =>
      rw [hpath] at hs
      exact Option.some.inj hs ▸ h
    | some path =>
      rw [hpath] at hs
      obtain rfl := Option.some.inj hs
      exact h.delete path

end Kept

/-- No `put` in progress writes to the path. -/
def AtRest (s : BlobState δ) (p : BlobPath) : Prop := ∀ entry ∈ s.uploads.rows, entry.2.path.upload ≠ p

theorem Kept.at_rest {store : LocalBlobStore δ} {s : BlobState δ} (h : Kept store s) {p : BlobPath}
    (hp : AtRest s p) : s.files.read p = shelf s.deeds p := by
  refine h.shelved p fun id u hu he => ?_
  obtain ⟨entry, hentry, rfl⟩ := map_eq_some_iff.mp hu
  exact hp entry (Table.mem_of_get? hentry) he.symm

/-- A path that is put on is at rest, and what stands there comes from a clean `put`. -/
theorem Kept.clean {store : LocalBlobStore δ} {s : BlobState δ} (h : Kept store s) {p : BlobPath} (hp : p ∈ s.puts)
    {bytes : List UInt8} (hread : s.files.read p = some bytes) :
    ∃ r, .returned r ∈ s.deeds ∧ r.path = p ∧ r.status = .clean ∧ r.chunks.flatten = bytes := by
  have hfree : ∀ id u, s.uploads.get? id = some u → p ≠ u.path.upload :=
    fun id u hu => (h.apart p hp u.path (h.writing id u hu).path_mem).1
  obtain hclean | ⟨q, hq, hside⟩ := h.sources p bytes (h.shelved p hfree ▸ hread)
  · exact hclean
  · obtain he | he := hside
    · exact absurd he (h.apart p hp q hq).1
    · exact absurd he (h.apart p hp q hq).2

/-- Along every run whose `put`s get their paths to themselves: what `get` yields of a key on which a
`put` has returned is what one `put` on it was given and the scanner found clean, under its size and
checksum; and while only `put`s that raise come to an end, and one that is not clean, the contents of
every path at rest stay, but for the one where the latter is quarantined. -/
theorem clean_bytes_readable {s : BlobState δ} {actions : List BlobStep}
    (h : Machine.exec store.step {} actions = some s) (hapart : Machine.Along store.step store.Apart {} actions) :
    (∀ key bytes r, store.get s key = some bytes → .returned r ∈ s.deeds → store.path key = some r.path →
      ∃ clean, .returned clean ∈ s.deeds ∧ clean.path = r.path ∧ clean.status = .clean ∧
        clean.chunks.flatten = bytes ∧ store.scan bytes = some .clean ∧
        clean.sizeBytes = bytes.length ∧ clean.checksumSha256 = store.sha256 bytes) ∧
    ∀ more s', Machine.exec store.step s more = some s' → Machine.Along store.step store.Apart s more →
      ∀ p, AtRest s p → AtRest s' p →
        (s'.deeds = s.deeds → s'.files.read p = s.files.read p) ∧
        ∀ r, s'.deeds = s.deeds ++ [.returned r] → r.status ≠ .clean →
          s'.files.read p = if p = r.path.quarantine then some r.chunks.flatten else s.files.read p := by
  have hkept : Kept store s :=
    Machine.invariant_along (fun _ _ _ hk ha hs => hk.step ha hs) .initial hapart h
  constructor
  · intro key bytes r hget hreturned hpath
    rw [get, hpath, bind_some] at hget
    obtain ⟨clean, hclean, hsame, hstatus, rfl⟩ := hkept.clean (hkept.results r hreturned).1 hget
    obtain ⟨-, hsize, hchecksum, hscan⟩ := hkept.results clean hclean
    exact ⟨clean, hclean, hsame, hstatus, rfl, hstatus ▸ hscan, hsize, hchecksum⟩
  · intro more s' hmore hapart' p hp hp'
    have hkept' : Kept store s' :=
      Machine.invariant_along (fun _ _ _ hk ha hs => hk.step ha hs) hkept hapart' hmore
    rw [hkept.at_rest hp, hkept'.at_rest hp']
    refine ⟨fun hdeeds => by rw [hdeeds], fun r hdeeds hstatus => ?_⟩
    rw [hdeeds, shelf_concat, BlobDeed.shelve, if_neg hstatus]

/-- A store whose scanner finds every byte but 66 clean. -/
def localStore : LocalBlobStore Nat where
  root := { dir := [], name := "blobs" }
  maxSizeBytes := 4
  allowedMimeTypes := ["text/plain"]
  scan bytes := some (if 66 ∈ bytes then .quarantined else .clean)
  sha256 bytes := bytes.length
  strip text := text
  lower text := text
  guessType _ := none

def plainPut (key : String) : BlobStep := .put key "text/plain" none

/-- A clean `put`, one that is too large and one that is not clean. -/
def oneByOne : List BlobStep :=
  [plainPut "a", .chunk 0 [1, 2] 0, .finish 0 true, plainPut "a", .chunk 1 [3, 4, 5] 2, .chunk 1 [6, 7] 0,
    plainPut "b", .chunk 2 [66] 1, .finish 2 true]

theorem clean_bytes_readable_oneByOne : ∃ s, Machine.exec localStore.step {} oneByOne = some s ∧
    ∃ clean, .returned clean ∈ s.deeds ∧ clean.status = .clean ∧ clean.chunks.flatten = [1, 2] ∧
      clean.sizeBytes = 2 := by
  have h : (Machine.exec localStore.step {} oneByOne).any (fun s =>
      localStore.get s "a" = some [1, 2] && s.deeds.any fun deed => match deed with
        | .returned r => localStore.path "a" = some r.path
        | _ => false) = true := by decide
  obtain ⟨s, hs, h⟩ := (Option.any_eq_true _ _).mp h
  obtain ⟨hget, h⟩ := Bool.and_eq_true_iff.mp h
  obtain ⟨deed, hdeed, hpath⟩ := List.any_eq_true.mp h
  cases deed with
  | returned r =>
    obtain ⟨clean, hclean, -, hstatus, hbytes, -, hsize, -⟩ := (localStore.clean_bytes_readable hs
      (by decide)).1 "a" [1, 2] r (of_decide_eq_true hget) hdeed (of_decide_eq_true hpath)
    exact ⟨s, hs, clean, hclean, hstatus, hbytes, hsize⟩
  | cancelled | deleted => cases hpath

/-- The second `put` writes through the file that the first one's scan has made readable. -/
def twoAtOnce : List BlobStep :=
  [plainPut "a", plainPut "a", .chunk 0 [1] 1, .finish 0 true, .chunk 1 [66] 1]

/-- What is not clean stands under a key of its own. -/
def notClean : List BlobStep := [plainPut "b", .chunk 0 [66] 1, .finish 0 true]

theorem unscanned_bytes_readable :
    (∃ s r, Machine.exec localStore.step {} twoAtOnce = some s ∧ localStore.get s "a" = some [66] ∧
      .returned r ∈ s.deeds ∧ localStore.path "a" = some r.path ∧
      ∀ r', .returned r' ∈ s.deeds → r'.chunks.flatten ≠ [66]) ∧
    ∃ s, Machine.exec localStore.step {} notClean = some s ∧ localStore.get {} "b.quarantine" = none ∧
      localStore.get s "b.quarantine" = some [66] := by
  constructor
  · have h : (Machine.exec localStore.step {} twoAtOnce).any (fun s =>
        (localStore.get s "a" = some [66] && s.deeds.length = 1) && s.deeds.all fun deed => match deed with
          | .returned r => localStore.path "a" = some r.path && r.chunks.flatten = [1]
          | _ => false) = true := by decide
    obtain ⟨s, hs, h⟩ := (Option.any_eq_true _ _).mp h
    obtain ⟨hfirst, h⟩ := Bool.and_eq_true_iff.mp h
    obtain ⟨hget, hone⟩ := Bool.and_eq_true_iff.mp hfirst
    obtain ⟨deed, hdeeds⟩ := length_eq_one_iff.mp (of_decide_eq_true hone)
    rw [hdeeds, all_cons, all_nil, Bool.and_true] at h
    split at h
    next r =>
      obtain ⟨hpath, hchunks⟩ := Bool.and_eq_true_iff.mp h
      refine ⟨s, r, hs, of_decide_eq_true hget, by simp [hdeeds], of_decide_eq_true hpath, ?_⟩
      intro r' hr'
      rw [hdeeds] at hr'
      obtain rfl := BlobDeed.returned.inj (mem_singleton.mp hr')
      rw [of_decide_eq_true hchunks]
      decide
    next => cases h
  · have h : (Machine.exec localStore.step {} notClean).any (fun s =>
        localStore.get {} "b.quarantine" = none && localStore.get s "b.quarantine" = some [66]) = true := by
      decide
    obtain ⟨s, hs, h⟩ := (Option.any_eq_true _ _).mp h
    obtain ⟨hbefore, hafter⟩ := Bool.and_eq_true_iff.mp h
    exact ⟨s, hs, of_decide_eq_true hbefore, of_decide_eq_true hafter⟩

end LocalBlobStore

end SelericSwarm
