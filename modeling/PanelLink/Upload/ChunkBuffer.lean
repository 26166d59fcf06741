import PanelLink.Bytes

/-! Gathering bytes into chunks of a fixed size: a chunk is committed the moment it is full. -/
namespace PanelLink

/-- The bytes that wait for their chunk of `size` bytes to fill. -/
structure ChunkBuffer (size : Nat) where
  pending : Bytes
  deriving DecidableEq

namespace ChunkBuffer

variable {size : Nat} {τ ε : Type}

def empty : ChunkBuffer size := ⟨[]⟩

/-- Take bytes in turn and commit each chunk that fills. When a commit fails its chunk is lost, the
buffer is empty and the bytes after it are not taken. -/
def accept (commit : τ → Bytes → Except ε Unit × τ) :
    Bytes → ChunkBuffer size → τ → Except ε Unit × ChunkBuffer size × τ
  | [], c, t => (.ok (), c, t)
  | b :: bs, c, t =>
    let chunk := c.pending ++ [b]
    if chunk.length < size then accept commit bs ⟨chunk⟩ t
    else
      match commit t chunk with
      | (.error e, t) => (.error e, empty, t)
      | (.ok (), t) => accept commit bs empty t

/-- Commit what is pending, if anything, and leave the buffer empty. -/
def flush (commit : τ → Bytes → Except ε Unit × τ) (c : ChunkBuffer size) (t : τ) :
    Except ε Unit × ChunkBuffer size × τ :=
  if c.pending = [] then (.ok (), c, t)
  else
    let (r, t) := commit t c.pending
    (r, empty, t)

end ChunkBuffer

end PanelLink
