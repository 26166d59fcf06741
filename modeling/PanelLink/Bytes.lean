/-! Byte strings, the text written in them, and 32-bit words in little-endian order. -/
namespace PanelLink

/-- A string of bytes, as it stands in a packet, a file or a name. -/
abbrev Bytes := List UInt8

namespace Bytes

def ofText (s : String) : Bytes :=
  s.toList.flatMap String.utf8EncodeChar

/-- One past the largest 32-bit number. -/
def wordLimit : Nat := 0x100000000

/-- The four bytes of a word, least significant first. -/
def ofWord (w : UInt32) : Bytes :=
  [w.toNat, w.toNat / 0x100, w.toNat / 0x10000, w.toNat / 0x1000000].map UInt8.ofNat

/-- The word whose bytes, least significant first, are the four given. -/
def toWord (a b c d : UInt8) : UInt32 :=
  UInt32.ofNat (a.toNat + 0x100 * b.toNat + 0x10000 * c.toNat + 0x1000000 * d.toNat)

/-- Lay `new` over `old` from `start` on; what `new` does not reach stays. -/
def overlay (start : Nat) (new old : Bytes) : Bytes :=
  old.take start ++ new ++ old.drop (start + new.length)

/-- Make a byte string at least `n` long by zeros at its end. -/
def padTo (n : Nat) (b : Bytes) : Bytes :=
  b ++ List.replicate (n - b.length) 0

@[simp] theorem length_padTo (n : Nat) (b : Bytes) : (b.padTo n).length = max n b.length := by
  simp only [padTo, List.length_append, List.length_replicate]
  omega

theorem length_overlay {start : Nat} {new old : Bytes} (h : start + new.length ≤ old.length) :
    (overlay start new old).length = old.length := by
  simp only [overlay, List.length_append, List.length_take, List.length_drop]
  omega

theorem toWord_ofWord (w : UInt32) :
    toWord (UInt8.ofNat w.toNat) (UInt8.ofNat (w.toNat / 0x100))
      (UInt8.ofNat (w.toNat / 0x10000)) (UInt8.ofNat (w.toNat / 0x1000000)) = w := by
  have h := w.toNat_lt
  apply UInt32.toNat_inj.mp
  simp only [toWord, UInt8.toNat_ofNat', UInt32.toNat_ofNat']
  omega

theorem ofWord_toWord (a b c d : UInt8) : ofWord (toWord a b c d) = [a, b, c, d] := by
  have ha := a.toNat_lt
  have hb := b.toNat_lt
  have hc := c.toNat_lt
  have hd := d.toNat_lt
  simp only [ofWord, toWord, UInt32.toNat_ofNat', List.map_cons, List.map_nil, List.cons.injEq,
    and_true]
  refine ⟨?_, ?_, ?_, ?_⟩ <;>
    · apply UInt8.toNat_inj.mp
      simp only [UInt8.toNat_ofNat']
      omega

end Bytes

end PanelLink
