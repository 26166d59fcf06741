import PanelLink.Endpoint.Basic

/-! Sending a file to the host: pieces of up to 30 bytes, each behind its length. -/
namespace PanelLink.Handler

variable {size chunk : Nat} {σ φ δ ε : Type}

def pieceSize : Nat := Reply.capacity - 1

def pieceReply (bytes : Bytes) : Except ReplyFull Reply := do
  let reply ← done.push (UInt8.ofNat bytes.length)
  reply.append bytes

variable [FileStore σ φ δ]

/-- Send a file piece by piece, at most so many, until a read gives nothing. -/
def sendPieces : Nat → φ → Conduct size chunk σ φ ε (Except CommandError Unit × φ)
  | 0, f => return (.ok (), f)
  | n + 1, f => do
    let (bytes, f) ← Conduct.onStore fun s =>
      let (bytes, f, s) := FileStore.read s f pieceSize
      ((bytes, f), s)
    match bytes with
    | .error e => return (.error (.storage e), f)
    | .ok [] => return (.ok (), f)
    | .ok bytes =>
      match pieceReply bytes with
      | .error e => return (.error (.ofReplyFull e), f)
      | .ok reply =>
        match ← (send reply).run with
        | .error e => return (.error e, f)
        | .ok () => sendPieces n f

/-- Send a file. The store is held until the file is closed; the final reply is empty. -/
def cat (payload : Bytes) : Handler size chunk σ φ ε Reply := do
  let path ← pathArgument payload
  let f ← callStore (FileStore.openFile · path .reading)
  let (streamed, closed) ← always do
    Conduct.setHeld true
    -- Each piece has a byte. Only a file that grows meanwhile, or that is read on past the last
    -- position, has more pieces than this.
    let bound ← Conduct.onStore fun s => (FileStore.bytesLeft s f, s)
    let (streamed, f) ← sendPieces (bound + 1) f
    let closed ← Conduct.onStore (FileStore.closeFile · f)
    Conduct.setHeld false
    return (streamed, closed)
  ofExcept id streamed
  ofExcept .storage closed
  return done

end PanelLink.Handler
