import PanelLink.Config.Basic
import PanelLink.Device.Screen
import PanelLink.Path
import PanelLink.Upload.WriteSession

/-!
The endpoint that serves a host: what it keeps between packets, where its replies go, and the
handlers that work on both while the tasks of the device run beside them.
-/
namespace PanelLink

structure TimeOfDay where
  hour : UInt8
  minute : UInt8
  second : UInt8
  deriving DecidableEq

/-- What is kept between packets. -/
structure Endpoint (chunk : Nat) (φ : Type) where
  config : Config
  cwd : Bytes
  upload : Option (WriteSession chunk φ)
  /-- Where the next raw pixels go in the first buffer. -/
  cursor : Nat
  clock : Option TimeOfDay
  deriving DecidableEq

/-- The working directory at first and after a format. -/
def rootDirectory : Bytes := [Path.slash]

def Endpoint.initial {chunk : Nat} {φ : Type} (config : Config) : Endpoint chunk φ :=
  ⟨config, rootDirectory, none, 0, none⟩

/-- A way for replies to the host, which may refuse some of them with a failure `ε`. -/
structure Transport (ε : Type) where
  /-- The failure of the send with a number, if it is refused. -/
  refuse : Nat → Option ε
  /-- Whether the sender has to wait after each send. -/
  slow : Bool

/-- A way that takes every reply at once. -/
def Transport.instant {ε : Type} : Transport ε :=
  ⟨fun _ => none, false⟩

structure Outbox (ε : Type) where
  transport : Transport ε
  sent : List Reply
  attempts : Nat
  /-- The first refusal; nothing is sent after it. -/
  failure : Option ε

namespace Outbox

variable {ε : Type}

def empty (transport : Transport ε) : Outbox ε :=
  ⟨transport, [], 0, none⟩

/-- Send a reply; whether it was taken. -/
def post (o : Outbox ε) (r : Reply) : Bool × Outbox ε :=
  match o.failure with
  | some _ => (false, o)
  | none =>
    match o.transport.refuse o.attempts with
    | some e => (false, { o with attempts := o.attempts + 1, failure := some e })
    | none => (true, { o with attempts := o.attempts + 1, sent := o.sent ++ [r] })

end Outbox

/-- What a handler works on besides the device. -/
structure Serving (chunk : Nat) (φ ε : Type) where
  endpoint : Endpoint chunk φ
  outbox : Outbox ε

/-- A part of a handler that cannot fail. -/
abbrev Conduct (size chunk : Nat) (σ φ ε : Type) :=
  StateT (Serving chunk φ ε) (Routine (Device size σ φ))

/-- A handler: what it did before it fails stays done. -/
abbrev Handler (size chunk : Nat) (σ φ ε : Type) :=
  ExceptT CommandError (Conduct size chunk σ φ ε)

namespace Conduct

variable {size chunk : Nat} {σ φ ε α : Type}

/-- A step on the device that nothing interrupts. -/
def onDevice (f : Device size σ φ → α × Device size σ φ) : Conduct size chunk σ φ ε α :=
  fun s d => .done ((f d).1, s) (f d).2

def onStore (f : σ → α × σ) : Conduct size chunk σ φ ε α :=
  onDevice (·.callStore f)

/-- Keep the store across the pauses to come, or let it go. -/
def setHeld (held : Bool) : Conduct size chunk σ φ ε Unit :=
  onDevice fun d => ((), { d with held := held })

def ofRoutine (r : Routine (Device size σ φ) α) : Conduct size chunk σ φ ε α :=
  fun s d => (r d).bind fun a d => .done (a, s) d

/-- Send a reply and wait if the transport is slow; whether it was taken. -/
def post (r : Reply) : Conduct size chunk σ φ ε Bool := fun s d =>
  let (taken, outbox) := s.outbox.post r
  let s := { s with outbox := outbox }
  if taken && outbox.transport.slow then .paused .delivery d (.done (taken, s))
  else .done (taken, s) d

end Conduct

namespace Handler

variable {size chunk : Nat} {σ φ ε α γ : Type}

def always (c : Conduct size chunk σ φ ε α) : Handler size chunk σ φ ε α :=
  ExceptT.lift c

def ofExcept (cause : γ → CommandError) (r : Except γ α) : Handler size chunk σ φ ε α :=
  match r with
  | .ok a => pure a
  | .error e => throw (cause e)

/-- A call of the store whose failure is the handler's. -/
def callStore (f : σ → Except StorageError α × σ) : Handler size chunk σ φ ε α := do
  ofExcept .storage (← always (Conduct.onStore f))

/-- What is kept between packets. -/
def endpoint : Handler size chunk σ φ ε (Endpoint chunk φ) :=
  always fun s d => .done (s.endpoint, s) d

def modifyEndpoint (f : Endpoint chunk φ → Endpoint chunk φ) : Handler size chunk σ φ ε Unit :=
  always fun s d => .done ((), { s with endpoint := f s.endpoint }) d

/-- Send a reply before the last one. -/
def send (r : Reply) : Handler size chunk σ φ ε Unit := do
  if !(← always (Conduct.post r)) then throw .transport

/-- The path in a payload, as the settings say what it means. -/
def pathArgument (payload : Bytes) : Handler size chunk σ φ ε Bytes := do
  let raw ← ofExcept .validation (Path.extract payload Path.maxLength)
  let e ← endpoint
  match e.config.paths with
  | .literal => return raw
  | .relative => ofExcept .validation (Path.resolve e.cwd raw)

/-- The reply of a command that only says that it is done. -/
def done : Reply := .ofStatus .success

end Handler

end PanelLink
