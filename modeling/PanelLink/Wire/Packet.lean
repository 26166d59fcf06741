import PanelLink.Bytes

/-! Request packets: a magic byte, a command, a 32-bit packet id and up to 26 bytes of payload. -/
namespace PanelLink

/-- The bytes of one report, in either direction. -/
def reportSize : Nat := 32

/-- The commands that a host may send. -/
inductive Command where
  | ls
  | cd
  | pwd
  | rm
  | mkdir
  | touch
  | cat
  | openFile
  | writeFile
  | closeFile
  | format
  | flashRemaining
  | chooseImage
  | writeDisplay
  | setTime
  deriving DecidableEq

namespace Command

def all : List Command :=
  [ls, cd, pwd, rm, mkdir, touch, cat, openFile, writeFile, closeFile, format, flashRemaining,
    chooseImage, writeDisplay, setTime]

def baseCode : UInt8 := 0x50

def code : Command → UInt8
  | ls => 0x50
  | cd => 0x51
  | pwd => 0x52
  | rm => 0x53
  | mkdir => 0x54
  | touch => 0x55
  | cat => 0x56
  | openFile => 0x57
  | writeFile => 0x58
  | closeFile => 0x59
  | format => 0x5A
  | flashRemaining => 0x5B
  | chooseImage => 0x5C
  | writeDisplay => 0x5D
  | setTime => 0x5E

/-- The command at a code's distance from the first, if there is one. -/
def ofCode? (code : UInt8) : Option Command :=
  if baseCode ≤ code then all[code.toNat - baseCode.toNat]? else none

theorem ofCode?_code (c : Command) : ofCode? c.code = some c := by
  cases c <;> rfl

end Command

/-- Why a frame is no packet, or a packet has no frame. -/
inductive PacketError where
  | badLength (length : Nat)
  | invalidMagic (byte : UInt8)
  | unknownCommand (code : UInt8)
  | payloadTooLarge
  deriving DecidableEq

/-- A request as the module sees it. -/
structure Packet where
  command : Command
  id : UInt32
  payload : Bytes
  deriving DecidableEq

namespace Packet

def headerSize : Nat := 6

/-- The most that one packet carries. -/
def maxPayload : Nat := reportSize - headerSize

def magic : UInt8 := 0x09

def header (p : Packet) : Bytes :=
  magic :: p.command.code :: Bytes.ofWord p.id

/-- The meaningful bytes of a packet. -/
def frame (p : Packet) : Bytes :=
  p.header ++ p.payload

/-- Length, magic and command are checked in this order; the first that fails is the error. -/
def decode (frame : Bytes) : Except PacketError Packet :=
  match frame with
  | m :: c :: i :: j :: k :: l :: payload =>
    if reportSize < frame.length then .error (.badLength frame.length)
    else if m ≠ magic then .error (.invalidMagic m)
    else
      match Command.ofCode? c with
      | none => .error (.unknownCommand c)
      | some command => .ok ⟨command, Bytes.toWord i j k l, payload⟩
  | _ => .error (.badLength frame.length)

/-- Write a packet over a report, zeros after it; a payload that is too large leaves the report. -/
def encode (p : Packet) (report : Bytes) : Except PacketError Nat × Bytes :=
  if maxPayload < p.payload.length then (.error .payloadTooLarge, report)
  else (.ok p.frame.length, p.frame.padTo reportSize)

theorem length_header (p : Packet) : p.header.length = headerSize := rfl

theorem length_frame (p : Packet) : p.frame.length = headerSize + p.payload.length := by
  simp only [frame, List.length_append, length_header]

end Packet

end PanelLink
