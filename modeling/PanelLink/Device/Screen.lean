import PanelLink.Device.Tasks
import PanelLink.Error

/-!
What a command does with the screen: stop an animation, start one, show a still image, and take raw
pixels. Only stopping has to wait, for the loader to leave its session.
-/
namespace PanelLink.Device

variable {size : Nat} {σ φ δ : Type}

/-- Look whether the loader has left: its signal is taken, and then it is really gone or not. -/
def takeLeft (d : Device size σ φ) : Bool × Device size σ φ :=
  if d.leftSignal then (!d.playback.loaderActive, { d with leftSignal := false }) else (false, d)

/-- Wait until the loader has left. -/
def awaitLeft : Routine (Device size σ φ) Unit := fun d =>
  match d.takeLeft with
  | (true, d) => .done () d
  | (false, d) => .paused .acknowledgement d (.done ())

/-- Ask for the end of an animation; what it was like before. -/
def requestStop (d : Device size σ φ) : Playback × Device size σ φ :=
  (d.playback, { d with playback := d.playback.halt })

variable [FileStore σ φ δ]

/-- Close the file of the animation, whatever comes of it. -/
def closeAnimation (d : Device size σ φ) : Device size σ φ :=
  match d.file with
  | none => d
  | some f => { d with file := none, store := (FileStore.closeFile d.store f).2 }

/-- Let go of what an animation used, and of the image if there was one. -/
def teardown (wasPlaying : Bool) (d : Device size σ φ) : Device size σ φ :=
  let d := d.closeAnimation
  if wasPlaying then { d with display := d.display.release } else d

/-- Stop the animation; whether there was one. -/
def stop : Routine (Device size σ φ) Bool := do
  let before ← Routine.step requestStop
  if before.loaderActive then awaitLeft
  Routine.step fun d => (before.playing, d.teardown before.playing)

/-- Put a file in the place of the animation's, and close the one that was there. -/
def installFile (d : Device size σ φ) (f : φ) : Device size σ φ :=
  match d.file with
  | none => { d with file := some f }
  | some old => { d with file := some f, store := (FileStore.closeFile d.store old).2 }

/-- Begin to play; the loader is told. -/
def beginSession (d : Device size σ φ) (frames : Nat) : Device size σ φ :=
  { d with leftSignal := false, playback := d.playback.start frames, startSignal := true }

/-- Start the animation at a path on an idle device; how many frames it has. -/
def launch (path : Bytes) (d : Device size σ φ) : Except CommandError Nat × Device size σ φ :=
  match d.callStore (FileStore.stat · path) with
  | (.error e, d) => (.error (.storage e), d)
  | (.ok ⟨.dir, _⟩, d) => (.error (.storage .isDir), d)
  | (.ok ⟨.file, length⟩, d) =>
    if length / size = 0 then (.error .invalidAsset, d)
    else
      match d.callStore (FileStore.openFile · path .reading) with
      | (.error e, d) => (.error (.storage e), d)
      | (.ok f, d) => (.ok (length / size), (d.installFile f).beginSession (length / size))

/-- Start the animation at a path in place of the one that runs; how many frames it has. -/
def start (path : Bytes) : Routine (Device size σ φ) (Except CommandError Nat) := do
  let _ ← stop
  Routine.step (launch path)

/-- Show the first frame of a file on an idle device; a short file ends in zeros. -/
def showFile (path : Bytes) (d : Device size σ φ) : Except CommandError Unit × Device size σ φ :=
  match d.callStore (FileStore.openFile · path .reading) with
  | (.error e, d) => (.error (.storage e), d)
  | (.ok f, d) =>
    let (got, f, s) := FileStore.readFull d.store f size
    let (closed, s) := FileStore.closeFile s f
    let d := { d with store := s }.fill .first got.bytes
    match got.failure, closed with
    | some e, _ => (.error (.storage e), d)
    | none, .error e => (.error (.storage e), d)
    | none, .ok () =>
      if got.bytes = [] then (.error .invalidAsset, d)
      else
        let d := d.fill .first (got.bytes.padTo size)
        match d.present (d.buffers.get .first) with
        | (.error e, d) => (.error (.display e), d)
        | (.ok (), d) => (.ok (), d)

/-- Show the first frame of a file in place of the animation that runs. -/
def showStill (path : Bytes) : Routine (Device size σ φ) (Except CommandError Unit) := do
  let _ ← stop
  Routine.step (showFile path)

/-- Put raw pixels into the first buffer at `cursor`. A full buffer is shown and the cursor goes
back to the start; what is over is dropped, and that is a failure. -/
def writeRaw (cursor : Nat) (pixels : Bytes) (d : Device size σ φ) :
    (Except CommandError Unit × Nat) × Device size σ φ :=
  let start := min cursor size
  let taken := pixels.take (size - start)
  let frame := Bytes.overlay start taken (d.buffers.get .first)
  let d := { d with buffers := d.buffers.set .first frame }
  let overflow := if taken.length < pixels.length then .error .displayOverflow else .ok ()
  if start + taken.length = size then
    match d.present frame with
    | (.error e, d) => ((.error (.display e), 0), d)
    | (.ok (), d) => ((overflow, 0), d)
  else ((overflow, start + taken.length), d)

end PanelLink.Device
