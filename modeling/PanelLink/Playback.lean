/-!
The state of an animation: which frame is on screen, which of two buffers holds it, and whether the
other holds the frame after it. Every operation is one step that nothing interrupts.
-/
namespace PanelLink

inductive Slot where
  | first
  | second
  deriving DecidableEq

/-- A frame that is to be read into a buffer, for one session. -/
structure Job where
  frame : Nat
  slot : Slot
  session : UInt32
  deriving DecidableEq

/-- What the loader has to do. -/
inductive Duty where
  /-- Leave the session: there is nothing to play any more. -/
  | leave
  /-- Wait: the frame that was read is not shown yet. -/
  | rest
  | load (job : Job)
  deriving DecidableEq

/-- How far an animation has come, as seen on screen. -/
inductive Phase where
  | idle
  /-- Started, with no frame shown yet. -/
  | loading
  | playing
  deriving DecidableEq

structure Playback where
  frameCount : Nat
  currentFrame : Nat
  currentSlot : Slot
  nextSlot : Slot
  /-- The next slot holds the frame after the current one. -/
  ready : Bool
  playing : Bool
  stopping : Bool
  /-- The loader has a session to leave. -/
  loaderActive : Bool
  /-- The number of the session, one more at every start. -/
  session : UInt32
  /-- A frame was shown in this session. -/
  started : Bool
  deriving DecidableEq

namespace Playback

def initial : Playback where
  frameCount := 0
  currentFrame := 0
  currentSlot := .first
  nextSlot := .second
  ready := false
  playing := false
  stopping := false
  loaderActive := false
  session := 0
  started := false

variable (p : Playback)

def phase : Phase :=
  if !p.playing then .idle else if p.started then .playing else .loading

/-- The frame after the current one, the first after the last. -/
def nextFrame : Nat :=
  (p.currentFrame + 1) % p.frameCount

/-- Begin a session; the last frame counts as current, so that the first comes next. The loader has
the session to leave from now on, even if it has not seen it yet. -/
def start (frameCount : Nat) : Playback where
  frameCount := frameCount
  currentFrame := frameCount - 1
  currentSlot := .first
  nextSlot := .second
  ready := false
  playing := true
  stopping := false
  loaderActive := true
  session := p.session + 1
  started := false

/-- What the loader has to do; once it is told to leave it counts as gone. -/
def duty : Duty × Playback :=
  if p.stopping || !p.playing || p.frameCount == 0 then (.leave, { p with loaderActive := false })
  else if p.ready then (.rest, p)
  else (.load ⟨p.nextFrame, p.nextSlot, p.session⟩, p)

/-- A frame was read, or failed to be. One for another session, or after a stop, counts for
nothing. -/
def deliver (session : UInt32) (ok : Bool) : Bool × Playback :=
  if !ok || p.stopping || !p.playing || session ≠ p.session then (false, p)
  else (true, { p with ready := true })

def readySlot? : Option Slot :=
  if p.playing && !p.stopping && p.ready then some p.nextSlot else none

def advance : Nat × Playback :=
  let frame := if p.frameCount = 0 then p.currentFrame else p.nextFrame
  (frame, { p with
    currentSlot := p.nextSlot
    nextSlot := p.currentSlot
    ready := false
    started := true
    currentFrame := frame })

def halt : Playback :=
  { p with stopping := true, playing := false, ready := false, started := false }

end Playback

end PanelLink
