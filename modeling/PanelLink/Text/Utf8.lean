import PanelLink.Bytes

/-! Reading UTF-8: one to four bytes a character, each in its shortest form. -/
namespace PanelLink.Text.Utf8

/-- Each byte of a character but the first has the bits `10` in front. -/
def isTail (b : UInt8) : Bool :=
  0x80 ≤ b && b ≤ 0xBF

/-- The six bits that a tail byte carries. -/
def tailBits (b : UInt8) : Nat :=
  b.toNat - 0x80

/-- The character of a code point that lies in the range its length is for. -/
def charWithin (low high code : Nat) : Option Char :=
  if low ≤ code ∧ code ≤ high ∧ code.isValidChar then some (Char.ofNat code) else none

def pair (a b : UInt8) : Option Char :=
  if 0xC0 ≤ a ∧ a ≤ 0xDF ∧ isTail b then
    charWithin 0x80 0x7FF ((a.toNat - 0xC0) * 64 + tailBits b)
  else none

def triple (a b c : UInt8) : Option Char :=
  if 0xE0 ≤ a ∧ a ≤ 0xEF ∧ isTail b ∧ isTail c then
    charWithin 0x800 0xFFFF ((a.toNat - 0xE0) * 4096 + tailBits b * 64 + tailBits c)
  else none

def quadruple (a b c d : UInt8) : Option Char :=
  if 0xF0 ≤ a ∧ a ≤ 0xF7 ∧ isTail b ∧ isTail c ∧ isTail d then
    charWithin 0x10000 0x10FFFF
      ((a.toNat - 0xF0) * 262144 + tailBits b * 4096 + tailBits c * 64 + tailBits d)
  else none

/-- The characters that a byte string spells, if it is UTF-8 throughout. -/
def decode? : Bytes → Option (List Char)
  | [] => some []
  | a :: rest =>
    if a < 0x80 then (decode? rest).map (Char.ofNat a.toNat :: ·)
    else
      match rest with
      | [] => none
      | b :: rest =>
        match pair a b with
        | some ch => (decode? rest).map (ch :: ·)
        | none =>
          match rest with
          | [] => none
          | c :: rest =>
            match triple a b c with
            | some ch => (decode? rest).map (ch :: ·)
            | none =>
              match rest with
              | [] => none
              | d :: rest =>
                match quadruple a b c d with
                | some ch => (decode? rest).map (ch :: ·)
                | none => none

def isValid (b : Bytes) : Bool :=
  (decode? b).isSome

end PanelLink.Text.Utf8
