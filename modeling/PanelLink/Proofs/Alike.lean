import PanelLink.Proofs.Books
import PanelLink.Proofs.Likeness
import PanelLink.Store.Volume

/-!
Volumes that differ in their counts alone. How often a volume was read or formatted, and how often a
stale handle was met, decides nothing that a call answers, as long as the handles keep step with the
formats.
-/
namespace PanelLink

/-- The handle with its generation moved on by `c`. -/
def FileHandle.ahead (c : UInt32) (f : FileHandle) : FileHandle :=
  { f with generation := f.generation + c }

def DirHandle.ahead (c : UInt32) (d : DirHandle) : DirHandle :=
  { d with generation := d.generation + c }

namespace FileHandle

variable (c : UInt32) (f : FileHandle)

theorem ahead_zero : f.ahead 0 = f := by
  unfold ahead
  rw [UInt32.add_zero]

theorem ahead_key : (f.ahead c).key = f.key := rfl

theorem ahead_pos : (f.ahead c).pos = f.pos := rfl

theorem ahead_flags : (f.ahead c).flags = f.flags := rfl

theorem ahead_generation : (f.ahead c).generation = f.generation + c := rfl

end FileHandle

namespace DirHandle

variable (c : UInt32) (d : DirHandle)

theorem ahead_entries : (d.ahead c).entries = d.entries := rfl

theorem ahead_generation : (d.ahead c).generation = d.generation + c := rfl

end DirHandle

namespace Volume

/-- The volumes have the same tree and geometry, and `w` was formatted `c` times more than `v`. -/
structure Alike (c : UInt32) (v w : Volume) : Prop where
  tree : w.tree = v.tree
  formatted : w.formatted = v.formatted
  mounted : w.mounted = v.mounted
  generation : w.generation = v.generation + c
  blockSize : w.blockSize = v.blockSize
  blockCount : w.blockCount = v.blockCount
  readFault : w.readFault = v.readFault

def alike (c : UInt32) : Likeness Volume FileHandle DirHandle where
  store := Alike c
  file f g := g = f.ahead c
  dir d e := e = d.ahead c

variable {c : UInt32} {v w : Volume}

theorem Alike.refl (v : Volume) : v.Alike 0 v where
  tree := rfl
  formatted := rfl
  mounted := rfl
  generation := (UInt32.add_zero v.generation).symm
  blockSize := rfl
  blockCount := rfl
  readFault := rfl

namespace Alike

section

variable (h : v.Alike c w)
include h

theorem put (k : Key) (n : Node) : (v.put k n).Alike c (w.put k n) where
  tree := by rw [Volume.put, Volume.put, h.tree]
  formatted := h.formatted
  mounted := h.mounted
  generation := h.generation
  blockSize := h.blockSize
  blockCount := h.blockCount
  readFault := h.readFault

theorem handle (k : Key) (flags : OpenFlags) : w.handle k flags = (v.handle k flags).ahead c := by
  simp only [Volume.handle, FileHandle.ahead, h.generation]

theorem mountFailure : w.mountFailure = v.mountFailure := by
  rw [Volume.mountFailure, Volume.mountFailure, h.mounted]

theorem parentFailure (k : Key) : w.parentFailure k = v.parentFailure k := by
  rw [Volume.parentFailure, Volume.parentFailure, h.tree]

theorem blocksFor (n : Nat) : w.blocksFor n = v.blocksFor n := by
  rw [Volume.blocksFor, Volume.blocksFor, h.blockSize]

theorem used : w.used = v.used := by
  have hblocks (n : Node) : w.blocks n = v.blocks n := by
    cases n with
    | file contents => exact h.blocksFor contents.length
    | dir => rfl
  simp only [Volume.used, h.tree, hblocks]

theorem free : w.free = v.free := by
  rw [Volume.free, Volume.free, h.blockCount, h.used]

/-- Neither volume takes the handle, for the same reason; or both do. -/
theorem handleFailure (g : UInt32) :
    (∃ e v' w', v.handleFailure g = (some e, v') ∧ w.handleFailure (g + c) = (some e, w') ∧
      v'.Alike c w') ∨
    (v.handleFailure g = (none, v) ∧ w.handleFailure (g + c) = (none, w)) := by
  unfold Volume.handleFailure
  rw [h.mounted, h.generation]
  by_cases hm : (!v.mounted) = true
  · rw [if_pos hm, if_pos hm]
    exact .inl ⟨.notMounted, v, w, rfl, rfl, h⟩
  rw [if_neg hm, if_neg hm]
  by_cases hg : g = v.generation
  · have hsame : g + c = v.generation + c := by rw [hg]
    rw [if_neg (not_not_intro hg), if_neg (not_not_intro hsame)]
    exact .inr ⟨rfl, rfl⟩
  · have hother : g + c ≠ v.generation + c := fun hsum => hg ((UInt32.add_left_inj c).mp hsum)
    rw [if_pos hg, if_pos hother]
    exact .inl ⟨.badHandle, _, _, rfl, rfl, h.tree, h.formatted, rfl, rfl, h.blockSize,
      h.blockCount, h.readFault⟩

theorem openFile (path : Bytes) (flags : OpenFlags) :
    (alike c).Answers (Agree (alike c).file) (v.openFile path flags) (w.openFile path flags) := by
  unfold Volume.openFile
  rw [h.mountFailure]
  cases v.mountFailure with
  | some e => exact ⟨.error e, h⟩
  | none =>
    dsimp only
    split
    · exact ⟨.error _, h⟩
    cases key path with
    | error e => exact ⟨.error e, h⟩
    | ok k =>
      have hopened : (alike c).file (v.handle k flags) (w.handle k flags) := h.handle k flags
      dsimp only
      rw [h.tree, h.parentFailure, h.free]
      rcases v.tree.get? k with _ | contents | _
      · dsimp only
        split
        · exact ⟨.error _, h⟩
        cases v.parentFailure k with
        | some e => exact ⟨.error e, h⟩
        | none =>
          dsimp only
          split
          · exact ⟨.error _, h⟩
          · exact ⟨.ok hopened, h.put k _⟩
      · dsimp only
        split
        · exact ⟨.error _, h⟩
        split
        · exact ⟨.ok hopened, h.put k _⟩
        · exact ⟨.ok hopened, h⟩
      · exact ⟨.error _, h⟩

theorem closeFile (f : FileHandle) :
    (alike c).Answers Eq (v.closeFile f) (w.closeFile (f.ahead c)) := by
  unfold Volume.closeFile
  obtain ⟨e, v', w', hv, hw, h'⟩ | ⟨hv, hw⟩ := h.handleFailure f.generation
  · rw [f.ahead_generation, hv, hw]
    exact ⟨rfl, h'⟩
  · rw [f.ahead_generation, hv, hw]
    exact ⟨rfl, h⟩

theorem read (f : FileHandle) (n : Nat) :
    (alike c).Replies (alike c).file (v.read f n) (w.read (f.ahead c) n) := by
  unfold Volume.read
  obtain ⟨e, v', w', hv, hw, h'⟩ | ⟨hv, hw⟩ := h.handleFailure f.generation
  · rw [f.ahead_generation, hv, hw]
    exact ⟨rfl, rfl, h'⟩
  · have hcounted : Alike c { v with reads := f.key :: v.reads }
        { w with reads := f.key :: w.reads } :=
      ⟨h.tree, h.formatted, h.mounted, h.generation, h.blockSize, h.blockCount, h.readFault⟩
    rw [f.ahead_generation, hv, hw]
    have hfault : (w.readFault = some f.key) = (v.readFault = some f.key) := by rw [h.readFault]
    have hnode : w.tree.get? f.key = v.tree.get? f.key := by rw [h.tree]
    dsimp only
    rw [f.ahead_key, f.ahead_flags, f.ahead_pos, hnode]
    simp only [hfault]
    split
    · exact ⟨rfl, rfl, hcounted⟩
    split
    · exact ⟨rfl, rfl, hcounted⟩
    rcases v.tree.get? f.key with _ | contents | _
    · exact ⟨rfl, rfl, hcounted⟩
    · exact ⟨rfl, rfl, hcounted⟩
    · exact ⟨rfl, rfl, hcounted⟩

theorem write (f : FileHandle) (data : Bytes) :
    (alike c).Replies (alike c).file (v.write f data) (w.write (f.ahead c) data) := by
  unfold Volume.write
  obtain ⟨e, v', w', hv, hw, h'⟩ | ⟨hv, hw⟩ := h.handleFailure f.generation
  · rw [f.ahead_generation, hv, hw]
    exact ⟨rfl, rfl, h'⟩
  · rw [f.ahead_generation, hv, hw]
    dsimp only
    rw [h.tree, h.free, f.ahead_key, f.ahead_flags, f.ahead_pos]
    split
    · exact ⟨rfl, rfl, h⟩
    rcases v.tree.get? f.key with _ | contents | _
    · exact ⟨rfl, rfl, h⟩
    · dsimp only
      rw [h.blocksFor, h.blocksFor]
      generalize (if f.flags.append then contents.length else f.pos) = start
      split
      · exact ⟨rfl, rfl, h⟩
      · exact ⟨rfl, rfl, h.put f.key _⟩
    · exact ⟨rfl, rfl, h⟩

theorem seek (f : FileHandle) (whence : SeekFrom) :
    (alike c).Replies (alike c).file (v.seek f whence) (w.seek (f.ahead c) whence) := by
  unfold Volume.seek
  obtain ⟨e, v', w', hv, hw, h'⟩ | ⟨hv, hw⟩ := h.handleFailure f.generation
  · rw [f.ahead_generation, hv, hw]
    exact ⟨rfl, rfl, h'⟩
  · rw [f.ahead_generation, hv, hw]
    have htarget (length : Nat) : target (f.ahead c) length whence = target f length whence := by
      cases whence <;> rfl
    dsimp only
    rw [h.tree, f.ahead_key]
    rcases v.tree.get? f.key with _ | contents | _
    · exact ⟨rfl, rfl, h⟩
    · dsimp only
      rw [htarget]
      split
      · exact ⟨rfl, rfl, h⟩
      · exact ⟨rfl, rfl, h⟩
    · exact ⟨rfl, rfl, h⟩

theorem stat (path : Bytes) : (alike c).Answers Eq (v.stat path) (w.stat path) := by
  unfold Volume.stat
  rw [h.mountFailure, h.tree]
  cases v.mountFailure with
  | some e => exact ⟨rfl, h⟩
  | none =>
    cases key path with
    | error e => exact ⟨rfl, h⟩
    | ok k =>
      dsimp only
      cases v.tree.get? k with
      | none => exact ⟨rfl, h⟩
      | some n => exact ⟨rfl, h⟩

theorem openDir (path : Bytes) :
    (alike c).Answers (Agree (alike c).dir) (v.openDir path) (w.openDir path) := by
  unfold Volume.openDir
  rw [h.mountFailure, h.tree, h.generation]
  cases v.mountFailure with
  | some e => exact ⟨.error e, h⟩
  | none =>
    cases key path with
    | error e => exact ⟨.error e, h⟩
    | ok k =>
      dsimp only
      rcases v.tree.get? k with _ | contents | _
      · exact ⟨.error _, h⟩
      · exact ⟨.error _, h⟩
      · exact ⟨.ok rfl, h⟩

theorem readDir (d : DirHandle) :
    (alike c).Replies (alike c).dir (v.readDir d) (w.readDir (d.ahead c)) := by
  unfold Volume.readDir
  obtain ⟨e, v', w', hv, hw, h'⟩ | ⟨hv, hw⟩ := h.handleFailure d.generation
  · rw [d.ahead_generation, hv, hw]
    exact ⟨rfl, rfl, h'⟩
  · rw [d.ahead_generation, hv, hw]
    dsimp only
    rw [d.ahead_entries]
    rcases d.entries with _ | ⟨e, es⟩
    · exact ⟨rfl, rfl, h⟩
    · exact ⟨rfl, rfl, h⟩

theorem closeDir (d : DirHandle) :
    (alike c).Answers Eq (v.closeDir d) (w.closeDir (d.ahead c)) := by
  unfold Volume.closeDir
  obtain ⟨e, v', w', hv, hw, h'⟩ | ⟨hv, hw⟩ := h.handleFailure d.generation
  · rw [d.ahead_generation, hv, hw]
    exact ⟨rfl, h'⟩
  · rw [d.ahead_generation, hv, hw]
    exact ⟨rfl, h⟩

theorem remove (path : Bytes) : (alike c).Answers Eq (v.remove path) (w.remove path) := by
  unfold Volume.remove
  rw [h.mountFailure, h.tree]
  cases v.mountFailure with
  | some e => exact ⟨rfl, h⟩
  | none =>
    cases key path with
    | error e => exact ⟨rfl, h⟩
    | ok k =>
      dsimp only
      split
      · exact ⟨rfl, h⟩
      cases v.tree.get? k with
      | none => exact ⟨rfl, h⟩
      | some n =>
        dsimp only
        split
        · exact ⟨rfl, h⟩
        · exact ⟨rfl, rfl, h.formatted, h.mounted, h.generation, h.blockSize, h.blockCount,
            h.readFault⟩

theorem mkdir (path : Bytes) : (alike c).Answers Eq (v.mkdir path) (w.mkdir path) := by
  unfold Volume.mkdir
  rw [h.mountFailure, h.tree]
  cases v.mountFailure with
  | some e => exact ⟨rfl, h⟩
  | none =>
    cases key path with
    | error e => exact ⟨rfl, h⟩
    | ok k =>
      dsimp only
      rw [h.parentFailure, h.free]
      split
      · exact ⟨rfl, h⟩
      cases v.parentFailure k with
      | some e => exact ⟨rfl, h⟩
      | none =>
        dsimp only
        split
        · exact ⟨rfl, h⟩
        · exact ⟨rfl, h.put k .dir⟩

/-- After a format of both the second is as many formats ahead as before. -/
theorem format : (alike c).Answers Eq v.format w.format := by
  have hgeneration : w.generation + 1 = v.generation + 1 + c := by
    rw [h.generation, UInt32.add_assoc, UInt32.add_comm c, UInt32.add_assoc]
  unfold Volume.format
  by_cases hroom : v.blockCount < dirBlocks
  · have hroom' : w.blockCount < dirBlocks := h.blockCount ▸ hroom
    rw [if_pos hroom, if_pos hroom']
    exact ⟨rfl, h⟩
  · have hroom' : ¬w.blockCount < dirBlocks := h.blockCount ▸ hroom
    rw [if_neg hroom, if_neg hroom']
    exact ⟨rfl, rfl, rfl, rfl, hgeneration, h.blockSize, h.blockCount, h.readFault⟩

theorem mount : (alike c).Answers Eq v.mount w.mount := by
  unfold Volume.mount
  by_cases hf : v.formatted = true
  · have hf' : w.formatted = true := h.formatted.trans hf
    rw [if_pos hf, if_pos hf']
    exact ⟨rfl, h.tree, h.formatted, rfl, h.generation, h.blockSize, h.blockCount, h.readFault⟩
  · have hf' : ¬w.formatted = true := by rwa [h.formatted]
    rw [if_neg hf, if_neg hf']
    exact ⟨rfl, h⟩

theorem usedBlocks : (alike c).Answers Eq v.usedBlocks w.usedBlocks := by
  unfold Volume.usedBlocks
  rw [h.mountFailure, h.used]
  cases v.mountFailure with
  | some e => exact ⟨rfl, h⟩
  | none => exact ⟨rfl, h⟩

theorem bytesLeft (f : FileHandle) : v.bytesLeft f = w.bytesLeft (f.ahead c) := by
  rw [Volume.bytesLeft, Volume.bytesLeft, h.tree]
  rfl

end

end Alike

/-- No call tells such volumes apart. -/
theorem alike_lawful : (alike c).Lawful where
  openFile path flags h := h.openFile path flags
  closeFile {_ _ f _} h hf := hf ▸ h.closeFile f
  read {_ _ f _} n h hf := hf ▸ h.read f n
  write {_ _ f _} data h hf := hf ▸ h.write f data
  seek {_ _ f _} whence h hf := hf ▸ h.seek f whence
  stat path h := h.stat path
  openDir path h := h.openDir path
  readDir {_ _ d _} h hd := hd ▸ h.readDir d
  closeDir {_ _ d _} h hd := hd ▸ h.closeDir d
  remove path h := h.remove path
  mkdir path h := h.mkdir path
  format h := h.format
  mount h := h.mount
  usedBlocks h := h.usedBlocks
  blockCount h := h.blockCount.symm
  blockSize h := h.blockSize.symm
  bytesLeft {_ _ f _} h hf := hf ▸ h.bytesLeft f
  entriesLeft _ hd := hd ▸ rfl

/-! ## One volume alone -/

private theorem Alike.same_left {v' : Volume} (h : v.Alike c w) (hv : v.Same v') :
    v'.Alike c w := by
  obtain ⟨reads, stale, rfl⟩ := hv
  exact ⟨h.tree, h.formatted, h.mounted, h.generation, h.blockSize, h.blockCount, h.readFault⟩

private theorem Alike.same_right {w' : Volume} (h : v.Alike c w) (hw : w.Same w') :
    v.Alike c w' := by
  obtain ⟨reads, stale, rfl⟩ := hw
  exact ⟨h.tree, h.formatted, h.mounted, h.generation, h.blockSize, h.blockCount, h.readFault⟩

theorem alike_tolerant : (alike c).Tolerant where
  left _ :=
    { read := fun {v f} n hv _ =>
        ⟨⟨Alike.same_left hv (v.read_same f n), fun _ _ => trivial, fun _ _ => trivial⟩,
          trivial⟩
      seek := fun {v f} whence hv _ =>
        ⟨⟨Alike.same_left hv (v.seek_same f whence), fun _ _ => trivial,
          fun _ _ => trivial⟩, trivial⟩ }
  right _ :=
    { read := fun {w f} n hw _ =>
        ⟨⟨Alike.same_right hw (w.read_same f n), fun _ _ => trivial, fun _ _ => trivial⟩,
          trivial⟩
      seek := fun {w f} whence hw _ =>
        ⟨⟨Alike.same_right hw (w.seek_same f whence), fun _ _ => trivial,
          fun _ _ => trivial⟩, trivial⟩ }
  closeLeft {v _} f h := h.same_left (v.closeFile_same f)
  closeRight {_ w} f h := h.same_right (w.closeFile_same f)

end Volume

end PanelLink
