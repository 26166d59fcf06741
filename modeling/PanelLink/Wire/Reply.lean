import PanelLink.Wire.Packet

/-! Replies: a status byte and up to 31 bytes of payload, padded with zeros to a report. -/
namespace PanelLink

/-- What the first byte of a reply says. -/
inductive Status where
  | success
  | alreadyExists
  | storeFull
  | widthOutOfBounds
  | heightOutOfBounds
  | nameInUse
  | notFound
  | notOpen
  | sequenceError
  | flashRemaining
  | invalidCommand
  deriving DecidableEq

namespace Status

def all : List Status :=
  [success, alreadyExists, storeFull, widthOutOfBounds, heightOutOfBounds, nameInUse, notFound,
    notOpen, sequenceError, flashRemaining, invalidCommand]

def code : Status → UInt8
  | success => 0x00
  | alreadyExists => 0xE1
  | storeFull => 0xE2
  | widthOutOfBounds => 0xE3
  | heightOutOfBounds => 0xE4
  | nameInUse => 0xE5
  | notFound => 0xE6
  | notOpen => 0xE7
  | sequenceError => 0xE8
  | flashRemaining => 0xE9
  | invalidCommand => 0xEF

def ofCode? (code : UInt8) : Option Status :=
  all.find? (·.code == code)

/-- Whether the command was carried out; the free blocks are told with a status of their own. -/
def isSuccess (s : Status) : Bool :=
  s = success

theorem ofCode?_code (s : Status) : ofCode? s.code = some s := by
  cases s <;> rfl

end Status

/-- The payload of a reply has no room for what was to be added. -/
inductive ReplyFull where
  | full
  deriving DecidableEq

/-- A reply under construction: its status and the payload written so far. -/
structure Reply where
  status : Status
  payload : Bytes
  deriving DecidableEq

namespace Reply

/-- The most payload that one reply carries. -/
def capacity : Nat := reportSize - 1

def ofStatus (s : Status) : Reply :=
  ⟨s, []⟩

def remaining (r : Reply) : Nat :=
  capacity - r.payload.length

def isEmpty (r : Reply) : Bool :=
  r.payload.isEmpty

def push (r : Reply) (b : UInt8) : Except ReplyFull Reply :=
  if capacity ≤ r.payload.length then .error .full else .ok { r with payload := r.payload ++ [b] }

/-- Add bytes, all of them or none. -/
def append (r : Reply) (bytes : Bytes) : Except ReplyFull Reply :=
  if r.remaining < bytes.length then .error .full
  else .ok { r with payload := r.payload ++ bytes }

def withPayload (s : Status) (payload : Bytes) : Except ReplyFull Reply :=
  (ofStatus s).append payload

def clear (r : Reply) : Reply :=
  { r with payload := [] }

def setStatus (r : Reply) (s : Status) : Reply :=
  { r with status := s }

/-- The report that goes out. -/
def frame (r : Reply) : Bytes :=
  Bytes.padTo reportSize (r.status.code :: r.payload)

theorem length_frame (r : Reply) (h : r.payload.length ≤ capacity) :
    r.frame.length = reportSize := by
  simp only [frame, Bytes.length_padTo, List.length_cons]
  simp only [capacity, reportSize] at *
  omega

end Reply

end PanelLink
