import PanelLink.Store.Entry

/-!
The contract of a file store: every call gives an answer and the store after it.
Handles are values; closing takes the handle, whatever the answer.
-/
namespace PanelLink

/-- A store `σ` with file handles `φ` and directory handles `δ`. -/
class FileStore (σ : Type) (φ δ : outParam Type) where
  openFile : σ → Bytes → OpenFlags → Except StorageError φ × σ
  closeFile : σ → φ → Except StorageError Unit × σ
  /-- Up to so many bytes from the position of the handle; none at the end of the file. -/
  read : σ → φ → Nat → Except StorageError Bytes × φ × σ
  /-- How many of the bytes were stored. -/
  write : σ → φ → Bytes → Except StorageError Nat × φ × σ
  seek : σ → φ → SeekFrom → Except StorageError Nat × φ × σ
  stat : σ → Bytes → Except StorageError Metadata × σ
  openDir : σ → Bytes → Except StorageError δ × σ
  /-- The next entry, or none at the end of the directory. -/
  readDir : σ → δ → Except StorageError (Option DirEntry) × δ × σ
  closeDir : σ → δ → Except StorageError Unit × σ
  remove : σ → Bytes → Except StorageError Unit × σ
  mkdir : σ → Bytes → Except StorageError Unit × σ
  /-- Erase everything; the store is left unmounted. -/
  format : σ → Except StorageError Unit × σ
  mount : σ → Except StorageError Unit × σ
  usedBlocks : σ → Except StorageError Nat × σ
  blockCount : σ → Nat
  blockSize : σ → Nat
  /-- How many bytes of the file lie behind the position of the handle. -/
  bytesLeft : σ → φ → Nat
  /-- A bound on how many entries the handle can still give. -/
  entriesLeft : σ → δ → Nat

/-- A read gives no more than was asked for, and an entry that was given is not given again. -/
class LawfulFileStore (σ : Type) (φ δ : outParam Type) [FileStore σ φ δ] : Prop where
  length_read_le {s s' : σ} {f f' : φ} {n : Nat} {b : Bytes} :
    FileStore.read s f n = (.ok b, f', s') → b.length ≤ n
  entriesLeft_readDir {s s' : σ} {d d' : δ} {e : DirEntry} :
    FileStore.readDir s d = (.ok (some e), d', s') →
      FileStore.entriesLeft s' d' < FileStore.entriesLeft s d

namespace FileStore

variable {σ φ δ : Type} [FileStore σ φ δ]

/-- What reading in pieces gave: the bytes, and the failure that ended it. -/
structure Gathered where
  bytes : Bytes
  failure : Option StorageError
  deriving DecidableEq

/-- Read in at most `tries` pieces until `want` bytes are there, the file ends or a read fails. -/
def gather (tries want : Nat) (s : σ) (f : φ) : Gathered × φ × σ :=
  match tries, want with
  | 0, _ => (⟨[], none⟩, f, s)
  | _, 0 => (⟨[], none⟩, f, s)
  | tries + 1, want + 1 =>
    match read s f (want + 1) with
    | (.error e, f, s) => (⟨[], some e⟩, f, s)
    | (.ok [], f, s) => (⟨[], none⟩, f, s)
    | (.ok (b :: bs), f, s) =>
      let (rest, f, s) := gather tries (want - bs.length) s f
      (⟨b :: bs ++ rest.bytes, rest.failure⟩, f, s)

/-- Read `want` bytes, or all up to the end of the file. Each piece has a byte, so `want` pieces
do. -/
def readFull (s : σ) (f : φ) (want : Nat) : Gathered × φ × σ :=
  gather want want s f

/-- Mount a store, formatting it first if it cannot be mounted. -/
def mountOrFormat (s : σ) : Except StorageError Unit × σ :=
  match mount s with
  | (.ok (), s) => (.ok (), s)
  | (.error _, s) =>
    match format s with
    | (.error e, s) => (.error e, s)
    | (.ok (), s) => mount s

/-- Make `data` the whole contents of a file; the first failure ends it. -/
def replace (s : σ) (path data : Bytes) : Except StorageError Unit × σ :=
  match openFile s path .replacing with
  | (.error e, s) => (.error e, s)
  | (.ok f, s) =>
    match write s f data with
    | (.error e, _, s) => (.error e, s)
    | (.ok _, f, s) => closeFile s f

end FileStore

end PanelLink
