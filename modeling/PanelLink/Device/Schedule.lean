import PanelLink.Device.Screen

/-!
Running a routine to its end while the tasks of the device go on: at each pause the loader is polled
once, and the frame timer ticks if it is asked to. A wait for the loader that does not end is
given up.
-/
namespace PanelLink.Device

variable {size : Nat} {σ φ δ α : Type}

/-- Whether what a routine waits for has come. -/
def arrived (d : Device size σ φ) : Pause → Bool × Device size σ φ
  | .delivery => (true, d)
  | .acknowledgement => d.takeLeft

variable [FileStore σ φ δ]

/-- What goes on during a pause: one poll of the loader, then a tick if the timer has its turn. -/
def interlude (ticking : Bool) (d : Device size σ φ) : List Tick × Device size σ φ :=
  let d := d.pollLoader
  if ticking then
    let (t, d) := d.tick
    ([t], d)
  else ([], d)

/-- Let the tasks go on until what a routine waits for has come, for at most so many turns. -/
def await (ticking : Bool) (pause : Pause) :
    Nat → Device size σ φ → Option (List Tick × Device size σ φ)
  | 0, _ => none
  | turns + 1, d =>
    let (ticks, d) := d.interlude ticking
    match d.arrived pause with
    | (true, d) => some (ticks, d)
    | (false, d) => (await ticking pause turns d).map fun (more, d) => (ticks ++ more, d)

/-- Run a routine to its end; what it gave, the ticks meanwhile and the device after it. None if a
wait takes more than `patience` turns. -/
def complete (ticking : Bool) (patience : Nat) :
    Run (Device size σ φ) α → Option (α × List Tick × Device size σ φ)
  | .done a d => some (a, [], d)
  | .paused pause d resume =>
    match await ticking pause patience d with
    | none => none
    | some (ticks, d) =>
      (complete ticking patience (resume d)).map fun (a, more, d) => (a, ticks ++ more, d)

end PanelLink.Device
