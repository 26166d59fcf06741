/-! The settings of a module and the values they have when nothing sets them. -/
namespace PanelLink

/-- What becomes of a listing that is longer than one reply. -/
inductive ListingMode where
  /-- It goes on in further replies. -/
  | split
  /-- It stops at the first entry that does not fit. -/
  | truncate
  deriving DecidableEq

/-- What a path without a leading slash means. -/
inductive PathMode where
  /-- It goes to the store as it is. -/
  | literal
  /-- It starts at the working directory. -/
  | relative
  deriving DecidableEq

structure Config where
  listing : ListingMode := .split
  paths : PathMode := .literal
  /-- Whether the ids of write packets must follow each other. -/
  enforceSequence : Bool := true
  fps : Nat := 12
  deriving DecidableEq

namespace Config

def minFps : Nat := 1

def maxFps : Nat := 60

/-- The milliseconds between two frames, whatever rate is set. -/
def frameInterval (c : Config) : Nat :=
  1000 / min (max c.fps minFps) maxFps

end Config

end PanelLink
