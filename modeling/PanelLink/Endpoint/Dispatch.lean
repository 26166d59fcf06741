import PanelLink.Endpoint.Contents
import PanelLink.Endpoint.Files
import PanelLink.Endpoint.Listing
import PanelLink.Endpoint.Screen
import PanelLink.Endpoint.Upload

/-!
Serving one frame: it is decoded, its command is carried out, and a final reply tells the status. A
command that fails ends in a reply with its status and no payload.
-/
namespace PanelLink

variable {size chunk : Nat} {σ φ δ ε : Type} [FileStore σ φ δ]

/-- Carry out a command; the reply is the one to send last. -/
def Handler.execute (p : Packet) : Handler size chunk σ φ ε Reply :=
  match p.command with
  | .ls => ls
  | .cd => cd p.payload
  | .pwd => pwd
  | .rm => rm p.payload
  | .mkdir => mkdir p.payload
  | .touch => touch p.payload
  | .cat => cat p.payload
  | .openFile => openFile p.payload
  | .writeFile => writeFile p.id p.payload
  | .closeFile => closeFile
  | .format => format
  | .flashRemaining => flashRemaining
  | .chooseImage => chooseImage p.payload
  | .writeDisplay => writeDisplay p.payload
  | .setTime => setTime p.payload

def finalReply : Except CommandError Reply → Reply
  | .ok reply => reply
  | .error e => .ofStatus e.status

namespace Conduct

/-- Send the last reply; its status, or the refusal of the transport. -/
def finish (reply : Reply) : Conduct size chunk σ φ ε (Except ε Status) := do
  let _ ← post reply
  match (← get).outbox.failure with
  | some e => return .error e
  | none => return .ok reply.status

/-- Serve a frame. A reply that was refused on the way is the end of it. -/
def serve (frame : Bytes) : Conduct size chunk σ φ ε (Except ε Status) := do
  match Packet.decode frame with
  | .error e => finish (finalReply (.error (.protocol e)))
  | .ok p =>
    let result ← (Handler.execute p).run
    match (← get).outbox.failure with
    | some e => return .error e
    | none => finish (finalReply result)

end Conduct

/-- What came of a frame: the status of its last reply or the refusal of the transport, the replies
that were taken, and the endpoint after it. -/
structure Served (chunk : Nat) (φ ε : Type) where
  result : Except ε Status
  replies : List Reply
  endpoint : Endpoint chunk φ

def Endpoint.dispatch (e : Endpoint chunk φ) (transport : Transport ε) (frame : Bytes) :
    Routine (Device size σ φ) (Served chunk φ ε) := fun d =>
  (Conduct.serve frame ⟨e, .empty transport⟩ d).bind fun (result, s) d =>
    .done ⟨result, s.outbox.sent, s.endpoint⟩ d

end PanelLink
