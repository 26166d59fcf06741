import PanelLink.Display
import PanelLink.Playback
import PanelLink.Routine
import PanelLink.Store.FileStore

/-!
What the tasks of a device share: the store, the player with its two frame buffers, and how far the
loader and the frame timer have come.
-/
namespace PanelLink

structure FrameBuffers where
  first : Bytes
  second : Bytes
  deriving DecidableEq

namespace FrameBuffers

def blank (size : Nat) : FrameBuffers :=
  ⟨List.replicate size 0, List.replicate size 0⟩

def get (b : FrameBuffers) : Slot → Bytes
  | .first => b.first
  | .second => b.second

def set (b : FrameBuffers) (i : Slot) (bytes : Bytes) : FrameBuffers :=
  match i with
  | .first => { b with first := bytes }
  | .second => { b with second := bytes }

theorem get_set_self (b : FrameBuffers) (i : Slot) (bytes : Bytes) :
    (b.set i bytes).get i = bytes := by
  cases i <;> rfl

theorem get_set_of_ne (b : FrameBuffers) {i j : Slot} (bytes : Bytes) (h : i ≠ j) :
    (b.set i bytes).get j = b.get j :=
  match i, j with
  | .first, .second => rfl
  | .second, .first => rfl
  | .first, .first => absurd rfl h
  | .second, .second => absurd rfl h

end FrameBuffers

/-- Where the loader stands between two polls. -/
inductive Loader where
  /-- It waits for an animation to start. -/
  | asleep
  /-- It is in a session and waits for a delay to end. -/
  | resting
  /-- It is in a session and waits for the store with a job in hand. -/
  | queued (job : Job)
  deriving DecidableEq

/-- How long the tasks wait, in milliseconds. -/
structure Timing where
  /-- Between two looks of the loader at the buffers. -/
  poll : Nat
  /-- Between two frames. -/
  frame : Nat
  deriving DecidableEq

/-- A device with frames of `size` bytes, a store `σ` and its file handles `φ`. -/
structure Device (size : Nat) (σ φ : Type) where
  store : σ
  /-- A command holds the store across a pause. -/
  held : Bool
  playback : Playback
  buffers : FrameBuffers
  file : Option φ
  display : Display
  /-- An animation has started and the loader has not seen it yet. -/
  startSignal : Bool
  /-- The loader has left its session and nobody has seen it yet. -/
  leftSignal : Bool
  loader : Loader
  /-- The frame timer has begun its first delay. -/
  timerRunning : Bool
  timing : Timing
  /-- Every delay that a task began. -/
  delays : List Nat
  deriving DecidableEq

namespace Device

variable {size : Nat} {σ φ : Type}

def initial (timing : Timing) (store : σ) : Device size σ φ where
  store := store
  held := false
  playback := .initial
  buffers := .blank size
  file := none
  display := .blank
  startSignal := false
  leftSignal := false
  loader := .asleep
  timerRunning := false
  timing := timing
  delays := []

/-- The frames of the running animation; 0 when there is none. -/
def frameCount (d : Device size σ φ) : Nat :=
  if d.playback.playing then d.playback.frameCount else 0

def delay (d : Device size σ φ) (ms : Nat) : Device size σ φ :=
  { d with delays := d.delays ++ [ms] }

/-- Show a frame, unless the panel refuses. -/
def present (d : Device size σ φ) (frame : Bytes) :
    Except DisplayError Unit × Device size σ φ :=
  let (r, display) := d.display.present frame
  (r, { d with display := display })

def callStore {α : Type} (d : Device size σ φ) (f : σ → α × σ) : α × Device size σ φ :=
  let (a, s) := f d.store
  (a, { d with store := s })

/-- Change a buffer from its start on. -/
def fill (d : Device size σ φ) (i : Slot) (bytes : Bytes) : Device size σ φ :=
  { d with buffers := d.buffers.set i (Bytes.overlay 0 bytes (d.buffers.get i)) }

end Device

end PanelLink
