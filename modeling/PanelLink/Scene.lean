import PanelLink.Config.Load
import PanelLink.Device.Schedule
import PanelLink.Endpoint.Dispatch

/-!
A device, the endpoint in front of it, and all that can happen to the two. A command is asked for
when none is in hand and goes on whenever it is looked after; the loader, the frame timer and
whoever else reaches the store or the panel have their turns in between, in any order.
-/
namespace PanelLink

/-- What goes on beside the commands. -/
inductive Aside (σ : Type) where
  | poll
  | tick
  | timer
  /-- The store is changed from outside: a fault is armed, a file comes or goes. -/
  | alter (change : σ → σ)
  /-- The panel begins to refuse frames, or takes them again. -/
  | setFault (fault : Option DisplayError)

/-- What a device is asked to do: to serve a frame of the host, or by the program it is part of. -/
inductive Request (ε : Type) where
  | frame (transport : Transport ε) (bytes : Bytes)
  | stop
  | start (path : Bytes)
  | showStill (path : Bytes)
  | loadConfig

inductive Answer (ε : Type) where
  | served (result : Except ε Status) (replies : List Reply)
  | stopped (wasPlaying : Bool)
  | started (frames : Except CommandError Nat)
  | shown (result : Except CommandError Unit)
  | loaded (result : Except Config.LoadError Config)

inductive Action (σ ε : Type) where
  | aside (a : Aside σ)
  | request (r : Request ε)
  /-- The command in hand looks whether its pause is over. -/
  | resume

inductive Event (ε : Type) where
  | quiet
  | ticked (t : Tick)
  | answered (a : Answer ε)

/-- The command in hand, or the endpoint while there is none. -/
inductive Hand (size chunk : Nat) (σ φ ε : Type) where
  | free (endpoint : Endpoint chunk φ)
  | busy (request : Request ε) (before : Endpoint chunk φ) (pause : Pause)
    (resume : Device size σ φ → Run (Device size σ φ) (Answer ε × Endpoint chunk φ))

/-- A device with its endpoint or the command that the endpoint is busy with. -/
structure Scene (size chunk : Nat) (σ φ ε : Type) where
  device : Device size σ φ
  hand : Hand size chunk σ φ ε

variable {size chunk : Nat} {σ φ δ ε : Type}

/-- What a device does with what happens beside the commands, and the tick if there was one. -/
def Aside.apply [FileStore σ φ δ] (d : Device size σ φ) :
    Aside σ → Option Tick × Device size σ φ
  | .poll => (none, d.pollLoader)
  | .tick => (some d.tick.1, d.tick.2)
  | .timer => (if d.timerRunning then some d.tick.1 else none, d.pollTimer)
  | .alter change => (none, { d with store := change d.store })
  | .setFault fault => (none, { d with display := { d.display with fault := fault } })

/-- The routine that a request runs, and the endpoint after it. -/
def Request.routine [FileStore σ φ δ] (e : Endpoint chunk φ) :
    Request ε → Routine (Device size σ φ) (Answer ε × Endpoint chunk φ)
  | .frame transport bytes => do
    let served ← e.dispatch transport bytes
    return (.served served.result served.replies, served.endpoint)
  | .stop => do return (.stopped (← Device.stop), e)
  | .start path => do return (.started (← Device.start path), e)
  | .showStill path => do return (.shown (← Device.showStill path), e)
  | .loadConfig => do return (.loaded (← Routine.step (·.callStore Config.load)), e)

namespace Scene

def initial (config : Config) (timing : Timing) (store : σ) : Scene size chunk σ φ ε :=
  ⟨.initial timing store, .free (.initial config)⟩

/-- The scene in which a command has come so far. -/
def settle (r : Request ε) (before : Endpoint chunk φ) :
    Run (Device size σ φ) (Answer ε × Endpoint chunk φ) → Event ε × Scene size chunk σ φ ε
  | .done (answer, e) d => (.answered answer, ⟨d, .free e⟩)
  | .paused pause d resume => (.quiet, ⟨d, .busy r before pause resume⟩)

variable [FileStore σ φ δ]

/-- One action. A request has to wait while a command is in hand. -/
def act (s : Scene size chunk σ φ ε) : Action σ ε → Event ε × Scene size chunk σ φ ε
  | .aside a =>
    let (tick, d) := a.apply s.device
    (tick.elim .quiet .ticked, { s with device := d })
  | .request r =>
    match s.hand with
    | .free e => settle r e (r.routine e s.device)
    | .busy .. => (.quiet, s)
  | .resume =>
    match s.hand with
    | .free _ => (.quiet, s)
    | .busy r e pause resume =>
      match s.device.arrived pause with
      | (true, d) => settle r e (resume d)
      | (false, d) => (.quiet, { s with device := d })

def after (s : Scene size chunk σ φ ε) : List (Action σ ε) → Scene size chunk σ φ ε
  | [] => s
  | a :: as => (s.act a).2.after as

def events (s : Scene size chunk σ φ ε) : List (Action σ ε) → List (Event ε)
  | [] => []
  | a :: as => (s.act a).1 :: (s.act a).2.events as

/-- The frames that the ticks among some actions presented. -/
def shown (s : Scene size chunk σ φ ε) (as : List (Action σ ε)) : List Nat :=
  (s.events as).filterMap fun
    | .ticked (.presented frame) => some frame
    | _ => none

end Scene

end PanelLink
