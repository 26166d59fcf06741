import PanelLink.Bytes

/-! The panel: it takes whole frames and lets go of what it shows. -/
namespace PanelLink

inductive DisplayError where
  | submit
  | geometry
  | notInitialized
  deriving DecidableEq

/-- A panel that keeps what it was given; while `fault` is set it refuses every frame. -/
structure Display where
  fault : Option DisplayError
  frames : List Bytes
  releases : Nat
  deriving DecidableEq

namespace Display

def blank : Display := ⟨none, [], 0⟩

/-- Show a frame, unless the panel refuses. -/
def present (frame : Bytes) (d : Display) : Except DisplayError Unit × Display :=
  match d.fault with
  | some e => (.error e, d)
  | none => (.ok (), { d with frames := d.frames ++ [frame] })

def release (d : Display) : Display :=
  { d with releases := d.releases + 1 }

end Display

end PanelLink
