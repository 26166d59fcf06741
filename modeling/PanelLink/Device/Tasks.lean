import PanelLink.Device.Basic

/-!
The tasks that run beside the commands. The loader sleeps until an animation starts, keeps the next
buffer filled while it plays and says so when it leaves; the frame timer shows what is ready.
-/
namespace PanelLink

inductive Tick where
  /-- There is no animation. -/
  | idle
  /-- There is nothing new to show, or the panel refused it. -/
  | skipped
  | presented (frame : Nat)
  deriving DecidableEq

namespace Device

variable {size : Nat} {σ φ δ : Type}

/-- One tick of the frame timer: show the next buffer if it is ready, and go on to the frame in
it. -/
def tick (d : Device size σ φ) : Tick × Device size σ φ :=
  if !d.playback.playing then (.idle, d)
  else
    match d.playback.readySlot? with
    | none => (.skipped, d)
    | some i =>
      match d.present (d.buffers.get i) with
      | (.error _, d) => (.skipped, d)
      | (.ok (), d) =>
        let (frame, p) := d.playback.advance
        (.presented frame, { d with playback := p })

/-- One poll of the frame timer: it ticks at the end of each delay and begins the next. -/
def pollTimer (d : Device size σ φ) : Device size σ φ :=
  let d := if d.timerRunning then d.tick.2 else d
  { d with timerRunning := true }.delay d.timing.frame

/-- Where a frame begins in its file, as far as a position can say. -/
def frameOffset (size frame : Nat) : Nat :=
  min (frame * size) (Bytes.wordLimit - 1)

/-- The loader waits before it looks again. -/
def restLoader (d : Device size σ φ) : Device size σ φ :=
  { d with loader := .resting }.delay d.timing.poll

/-- The loader says that it has left, and sleeps. A start that came meanwhile is for a session that
ends the same way, so it is seen as well. -/
def leaveSession (d : Device size σ φ) : Device size σ φ :=
  { d with leftSignal := true, startSignal := false, loader := .asleep }

variable [FileStore σ φ δ]

/-- Read a frame of the animation into a buffer; whether all of it was there. -/
def loadFrame (d : Device size σ φ) (job : Job) : Bool × Device size σ φ :=
  match d.file with
  | none => (false, d)
  | some f =>
    match FileStore.seek d.store f (.start (frameOffset size job.frame)) with
    | (.error _, f, s) => (false, { d with file := some f, store := s })
    | (.ok _, f, s) =>
      let (got, f, s) := FileStore.readFull s f size
      (got.failure.isNone && got.bytes.length == size,
        { d with file := some f, store := s }.fill job.slot got.bytes)

def perform (d : Device size σ φ) (job : Job) : Bool × Device size σ φ :=
  let (ok, d) := d.loadFrame job
  (ok, { d with playback := (d.playback.deliver job.session ok).2 })

/-- The loader takes its next duty. After a load it rests in any case: a frame that was read is then
ready, and one that was not is tried again later. -/
def serve (d : Device size σ φ) : Device size σ φ :=
  let (duty, p) := d.playback.duty
  let d := { d with playback := p }
  match duty with
  | .leave => d.leaveSession
  | .rest => d.restLoader
  | .load job =>
    if d.held then { d with loader := .queued job } else (d.perform job).2.restLoader

def pollLoader (d : Device size σ φ) : Device size σ φ :=
  match d.loader with
  | .asleep => if d.startSignal then { d with startSignal := false }.serve else d
  | .resting => d.serve
  | .queued job =>
    if d.held then d
    else
      match d.perform job with
      | (true, d) => d.serve
      | (false, d) => d.restLoader

end Device

end PanelLink
