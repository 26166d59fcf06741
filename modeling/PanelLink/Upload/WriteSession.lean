import PanelLink.Error
import PanelLink.Store.FileStore
import PanelLink.Upload.ChunkBuffer

/-! An upload: one open file, the chunk in front of it and the id of the last packet. -/
namespace PanelLink

/-- An upload to the file `φ`, in chunks of `size` bytes. -/
structure WriteSession (size : Nat) (φ : Type) where
  file : φ
  chunk : ChunkBuffer size
  lastId : Option UInt32
  deriving DecidableEq

namespace WriteSession

variable {size : Nat} {σ φ δ : Type} [FileStore σ φ δ]

def ofFile (f : φ) : WriteSession size φ :=
  ⟨f, .empty, none⟩

/-- Store all of the bytes; less is a failure. -/
def commit (t : φ × σ) (data : Bytes) : Except CommandError Unit × φ × σ :=
  match FileStore.write t.2 t.1 data with
  | (.error e, f, s) => (.error (.storage e), f, s)
  | (.ok n, f, s) =>
    if n = data.length then (.ok (), f, s) else (.error (.shortWrite n data.length), f, s)

/-- What is wrong with the id of a packet: with `enforce`, each follows the one before. -/
def sequenceFailure (w : WriteSession size φ) (enforce : Bool) (id : UInt32) :
    Option CommandError :=
  match w.lastId with
  | none => none
  | some last => if enforce ∧ id ≠ last + 1 then some (.sequence (last + 1) id) else none

/-- Take the bytes of a packet. One out of sequence changes nothing. -/
def write (w : WriteSession size φ) (s : σ) (id : UInt32) (data : Bytes) (enforce : Bool) :
    Except CommandError Unit × WriteSession size φ × σ :=
  match w.sequenceFailure enforce id with
  | some e => (.error e, w, s)
  | none =>
    let (r, chunk, f, s) := w.chunk.accept commit data (w.file, s)
    (r, ⟨f, chunk, some id⟩, s)

/-- Store what is pending and close the file, whatever comes of it; the first failure counts. -/
def close (w : WriteSession size φ) (s : σ) : Except CommandError Unit × σ :=
  let (flushed, _, f, s) := w.chunk.flush commit (w.file, s)
  let (closed, s) := FileStore.closeFile s f
  match flushed, closed with
  | .error e, _ => (.error e, s)
  | .ok (), .error e => (.error (.storage e), s)
  | .ok (), .ok () => (.ok (), s)

/-- Close the file without storing what is pending, whatever comes of it. -/
def abandon (w : WriteSession size φ) (s : σ) : σ :=
  (FileStore.closeFile s w.file).2

end WriteSession

end PanelLink
