import Mathlib.Algebra.Order.Floor.Div
import PanelLink.Proofs.Generations
import PanelLink.Proofs.Room

/-!
The room of a volume, counted exactly. As long as no write has ended past the last position, every
file is as long as its entry says, the blocks that are used are those that the files and directories
need, and a write is refused exactly when it would need more than are left.
-/
namespace PanelLink

def Node.length : Node → Nat
  | stored body => body.length
  | dir => 0

namespace Volume

variable {v w : Volume} {f : FileHandle} {data contents : Bytes} {k : Key} {n : Node} {c : Call}

/-! ## Blocks -/

/-- The blocks that a node takes up if its length is not cut to a word. -/
def needed (v : Volume) : Node → Nat
  | .stored body => body.length ⌈/⌉ v.blockSize
  | .dir => dirBlocks

def totalNeeded (v : Volume) : Nat :=
  v.tree.weight v.needed

theorem blocksFor_eq_ceilDiv (hsize : 0 < v.blockSize) {length : Nat}
    (hlength : length < Bytes.wordLimit) : v.blocksFor length = length ⌈/⌉ v.blockSize := by
  have hsum : length + (v.blockSize - 1) = length + v.blockSize - 1 := by omega
  rw [blocksFor, Nat.mod_eq_of_lt hlength, hsum, Nat.ceilDiv_eq_add_pred_div]

/-- A length cut to a word takes up no more blocks. -/
theorem blocksFor_le_ceilDiv (hsize : 0 < v.blockSize) (length : Nat) :
    v.blocksFor length ≤ length ⌈/⌉ v.blockSize := by
  have hcut := Nat.mod_le length Bytes.wordLimit
  rw [blocksFor, Nat.ceilDiv_eq_add_pred_div]
  apply Nat.div_le_div_right
  omega

private theorem blocks_eq_needed (hsize : 0 < v.blockSize) (hlength : n.length < Bytes.wordLimit) :
    v.blocks n = v.needed n := by
  cases n with
  | file contents => exact blocksFor_eq_ceilDiv hsize hlength
  | dir => rfl

/-! ## Lengths -/

/-- Every file is shorter than `Bytes.wordLimit`. -/
def Fits (v : Volume) : Prop :=
  ∀ x ∈ v.tree, x.2.length < Bytes.wordLimit

theorem used_eq_totalNeeded (h : v.Fits) (hsize : 0 < v.blockSize) : v.used = v.totalNeeded := by
  have hnodes : v.tree.nodes.map v.blocks = v.tree.nodes.map v.needed := by
    apply List.map_congr_left
    intro n hn
    obtain ⟨x, hx, rfl⟩ := List.mem_map.mp hn
    exact blocks_eq_needed hsize (h x hx)
  rw [used_eq_weight, totalNeeded, Tree.weight, Tree.weight, hnodes]

theorem Fits.of_tree (h : v.Fits) (ht : w.tree = v.tree) : w.Fits := by
  unfold Fits
  rw [ht]
  exact h

theorem Fits.put (h : v.Fits) (hn : n.length < Bytes.wordLimit) : (v.put k n).Fits := by
  intro x hx
  obtain rfl | hx := Tree.mem_insert hx
  · exact hn
  · exact h x hx

/-- A write to a file that ends at `Bytes.wordLimit` or behind it. -/
def Call.Overruns (v : Volume) : Call → Prop
  | write f data => ∃ contents, v.tree.get? f.key = some (.file contents) ∧
      Bytes.wordLimit ≤ start f contents + data.length
  | _ => False

theorem Fits.perform (h : v.Fits) (hc : (v.perform c).failure = none → ¬ c.Overruns v) :
    (v.perform c).volume.Fits := by
  have hzero : 0 < Bytes.wordLimit := by decide
  cases c with
  | closeFile | read | seek | stat | openDir | readDir | closeDir | mount | usedBlocks =>
    exact h.of_tree (perform_tree rfl)
  | openFile path flags =>
    show (v.openFile path flags).2.Fits
    obtain ⟨e, he⟩ | ⟨k, -, -, ⟨_, -, -, he⟩ | ⟨_, -, -, he⟩ | ⟨-, -, he⟩⟩ :=
      v.openFile_cases path flags
    · rw [he]
      exact h
    · rw [he]
      exact h
    · rw [he]
      exact h.put hzero
    · rw [he]
      exact h.put hzero
  | write f data =>
    show (v.write f data).2.2.Fits
    obtain ⟨e, w, he, hw⟩ | ⟨contents, hold, -, -, he⟩ := v.write_cases f data
    · rw [he]
      exact h.of_tree hw.tree
    · have hdone : (v.perform (.write f data)).failure = none := by
        simp only [Volume.perform, he, failure]
      have hstop : start f contents + data.length < Bytes.wordLimit :=
        Nat.lt_of_not_le fun hover => hc hdone ⟨contents, hold, hover⟩
      have hlength : contents.length < Bytes.wordLimit := h _ (Tree.mem_of_get? hold)
      have hwritten := length_written contents (start f contents) data
      rw [he]
      refine h.put ?_
      show (written contents (start f contents) data).length < Bytes.wordLimit
      omega
  | remove path =>
    show (v.remove path).2.Fits
    obtain ⟨e, he⟩ | ⟨k, _, -, -, -, -, -, he⟩ := v.remove_cases path
    · rw [he]
      exact h
    · rw [he]
      exact fun x hx => h x (List.mem_of_mem_filter hx)
  | mkdir path =>
    show (v.mkdir path).2.Fits
    obtain ⟨e, he⟩ | ⟨k, -, -, -, -, -, he⟩ := v.mkdir_cases path
    · rw [he]
      exact h
    · rw [he]
      exact h.put hzero
  | format =>
    show v.format.2.Fits
    unfold format
    split
    · exact h
    · intro x hx
      obtain rfl := List.mem_singleton.mp hx
      exact hzero

/-! ## Volumes that were never formatted -/

/-- While the volume is not mounted every call but a format and a mount fails and changes
nothing. -/
theorem perform_off (hm : v.mounted = false) (hformat : c ≠ .format) (hmount : c ≠ .mount) :
    v.Same (v.perform c).volume := by
  have hfailed : (v.perform c).failure = some .notMounted := by
    cases c with
    | format => exact absurd rfl hformat
    | mount => exact absurd rfl hmount
    | closeFile | read | write | seek | readDir | closeDir => rw [perform_unmounted rfl hm]
    | openFile => simp [perform, openFile, mountFailure, hm, failure]
    | stat => simp [perform, stat, mountFailure, hm, answer, failure]
    | openDir => simp [perform, openDir, mountFailure, hm, failure]
    | remove => simp [perform, remove, mountFailure, hm, answer, failure]
    | mkdir => simp [perform, mkdir, mountFailure, hm, answer, failure]
    | usedBlocks => simp [perform, usedBlocks, mountFailure, hm, answer, failure]
  exact (perform_failed hfailed).2

private theorem perform_formatted (hc : c ≠ .format) :
    (v.perform c).volume.formatted = v.formatted := by
  cases c with
  | format => exact absurd rfl hc
  | closeFile f => exact (v.closeFile_same f).formatted
  | read f n => exact (v.read_same f n).formatted
  | seek f whence => exact (v.seek_same f whence).formatted
  | readDir d => exact (v.readDir_same d).formatted
  | closeDir d => exact (v.closeDir_same d).formatted
  | stat path => exact congrArg Volume.formatted (v.stat_tree path)
  | openDir path => exact congrArg Volume.formatted (v.openDir_tree path)
  | usedBlocks => exact congrArg Volume.formatted v.usedBlocks_tree
  | mount =>
    show v.mount.2.formatted = v.formatted
    unfold mount
    split <;> rfl
  | openFile path flags =>
    obtain ⟨e, he⟩ | ⟨k, -, -, ⟨_, -, -, he⟩ | ⟨_, -, -, he⟩ | ⟨-, -, he⟩⟩ :=
      v.openFile_cases path flags
    all_goals exact congrArg (Volume.formatted ·.2) he
  | write f data =>
    obtain ⟨e, w, he, hw⟩ | ⟨contents, -, -, -, he⟩ := v.write_cases f data
    · exact (congrArg (Volume.formatted ·.2.2) he).trans hw.formatted
    · exact congrArg (Volume.formatted ·.2.2) he
  | remove path =>
    obtain ⟨e, he⟩ | ⟨k, _, -, -, -, -, -, he⟩ := v.remove_cases path
    all_goals exact congrArg (Volume.formatted ·.2) he
  | mkdir path =>
    obtain ⟨e, he⟩ | ⟨k, -, -, -, -, -, he⟩ := v.mkdir_cases path
    all_goals exact congrArg (Volume.formatted ·.2) he

/-- A format or a mount that leaves a volume unformatted has failed. -/
theorem perform_unformatted (hv : v.Wellformed) (hf : (v.perform c).volume.formatted = false) :
    v.formatted = false ∧ (v.perform c).volume.tree = v.tree := by
  by_cases hformat : c = .format
  · subst hformat
    have hsame : v.format.2 = v := by
      have hf : v.format.2.formatted = false := hf
      unfold format at hf ⊢
      split at hf
      · rename_i hsmall
        rw [if_pos hsmall]
      · cases hf
    exact ⟨(congrArg Volume.formatted hsame).symm.trans hf, congrArg Volume.tree hsame⟩
  · have hbefore : v.formatted = false := (perform_formatted hformat).symm.trans hf
    have hm : v.mounted = false := by
      cases hon : v.mounted with
      | false => rfl
      | true => exact absurd (hv.formatted hon) (by simp [hbefore])
    refine ⟨hbefore, ?_⟩
    by_cases hmount : c = .mount
    · rw [hmount]
      exact perform_tree rfl
    · exact (perform_off hm hformat hmount).tree

/-- Before the first format there is nothing. -/
theorem Reachable.tree_eq_nil (h : v.Reachable) (hf : v.formatted = false) : v.tree = [] := by
  induction h with
  | blank blockSize blockCount => rfl
  | fresh blockSize blockCount h => cases hf
  | setReadFault path _ ih => exact ih hf
  | perform c hv ih =>
    obtain ⟨hbefore, htree⟩ := perform_unformatted hv.wellformed hf
    rw [htree, ih hbefore]

/-! ## Any run -/

/-- The volumes that calls make of a new one, if no overrunning write succeeds. -/
inductive Confined : Volume → Prop
  | blank (blockSize blockCount : UInt32) : Confined (blank blockSize.toNat blockCount.toNat)
  | fresh (blockSize blockCount : UInt32) (h : dirBlocks ≤ blockCount.toNat) :
      Confined (fresh blockSize.toNat blockCount.toNat)
  | perform {v : Volume} (c : Call) :
      Confined v → ((v.perform c).failure = none → ¬ c.Overruns v) → Confined (v.perform c).volume
  | setReadFault {v : Volume} (path : Option Bytes) : Confined v → Confined (v.setReadFault path)

namespace Confined

theorem reachable (h : v.Confined) : v.Reachable := by
  induction h with
  | blank blockSize blockCount => exact .blank blockSize blockCount
  | fresh blockSize blockCount h => exact .fresh blockSize blockCount h
  | perform c _ _ ih => exact .perform c ih
  | setReadFault path _ ih => exact .setReadFault path ih

theorem fits (h : v.Confined) : v.Fits := by
  induction h with
  | blank => exact nofun
  | fresh blockSize blockCount h =>
    intro x hx
    obtain rfl := List.mem_singleton.mp hx
    decide
  | perform c _ hc ih => exact ih.perform hc
  | setReadFault path _ ih => exact ih

theorem used_eq (h : v.Confined) : v.used = v.totalNeeded :=
  used_eq_totalNeeded h.fits h.reachable.wellformed.blockSize.1

theorem totalNeeded_le (h : v.Confined) : v.totalNeeded ≤ v.blockCount := by
  cases hf : v.formatted with
  | true =>
    rw [← h.used_eq]
    exact h.reachable.wellformed.room hf
  | false =>
    have hnothing : v.totalNeeded = 0 := by
      rw [totalNeeded, h.reachable.tree_eq_nil hf]
      rfl
    omega

end Confined

/-! ## Writes -/

/-- The blocks to add to a file of `length` bytes when it is to reach `stop`. -/
def growth (v : Volume) (length stop : Nat) : Nat :=
  max length stop ⌈/⌉ v.blockSize - length ⌈/⌉ v.blockSize

/-- A write through a good handle has only its room to fail for. -/
theorem write_eq (hm : v.mounted = true) (hg : f.generation = v.generation)
    (hw : f.flags.write = true) (hk : v.tree.get? f.key = some (.file contents)) :
    v.write f data =
      let stop := start f contents + data.length
      if v.free < v.blocksFor (max contents.length stop) - v.blocksFor contents.length then
        (.error .noSpace, f, v)
      else
        (.ok data.length, { f with pos := stop % Bytes.wordLimit },
          v.put f.key (.file (written contents (start f contents) data))) := by
  have hgood : v.handleFailure f.generation = (none, v) := by
    rw [hg]
    exact handleFailure_mounted hm
  unfold write
  rw [hgood]
  simp only [hw, hk, Bool.not_true, Bool.false_eq_true, if_false, writtenBody_eq,
    Body.bytes_ofBytes, Body.length_ofBytes]
  rfl

/-- A write through a good handle goes through, or is refused for want of room. As long as it ends
at a position, it is the room that decides, and the handle is left there. -/
theorem write_exact (hsize : 0 < v.blockSize) (hm : v.mounted = true)
    (hg : f.generation = v.generation) (hw : f.flags.write = true)
    (hk : v.tree.get? f.key = some (.file contents)) (hlength : contents.length < Bytes.wordLimit) :
    (∃ pos, v.write f data = (.ok data.length, { f with pos := pos },
        v.put f.key (.file (written contents (start f contents) data))) ∧
      (start f contents + data.length < Bytes.wordLimit →
        pos = start f contents + data.length ∧ v.growth contents.length pos ≤ v.free)) ∨
    (v.write f data = (.error .noSpace, f, v) ∧
      v.free < v.growth contents.length (start f contents + data.length)) := by
  have hold : v.blocksFor contents.length = contents.length ⌈/⌉ v.blockSize :=
    blocksFor_eq_ceilDiv hsize hlength
  have hnew := v.blocksFor_le_ceilDiv hsize (max contents.length (start f contents + data.length))
  rw [write_eq hm hg hw hk]
  dsimp only
  split
  · rename_i hover
    right
    refine ⟨rfl, ?_⟩
    unfold growth
    omega
  · rename_i hroom
    left
    refine ⟨_, rfl, fun hstop => ?_⟩
    have hlong : max contents.length (start f contents + data.length) < Bytes.wordLimit := by omega
    rw [blocksFor_eq_ceilDiv hsize hlong, hold] at hroom
    rw [Nat.mod_eq_of_lt hstop]
    exact ⟨rfl, Nat.le_of_not_lt hroom⟩

/-- After any calls of which no write overran, the files and directories need no more blocks than
there are, the free blocks are the ones left, and every entry tells how long its file is. A write
through a good handle may be refused only if its file would grow by more blocks than are free, and
it changes nothing then. If it ends at a position it is refused exactly then, and otherwise it
leaves the handle where it ended. -/
theorem Confined.never_overcommitted (h : v.Confined) :
    (v.totalNeeded ≤ v.blockCount ∧ v.free + v.totalNeeded = v.blockCount) ∧
    (∀ k contents, v.tree.get? k = some (.file contents) →
      contents.length < Bytes.wordLimit ∧ (Node.file contents).size = contents.length) ∧
    ∀ f data contents, v.mounted = true → f.generation = v.generation → f.flags.write = true →
      v.tree.get? f.key = some (.file contents) →
      (∃ pos, v.write f data = (.ok data.length, { f with pos := pos },
          v.put f.key (.file (written contents (start f contents) data))) ∧
        (start f contents + data.length < Bytes.wordLimit →
          pos = start f contents + data.length ∧ v.growth contents.length pos ≤ v.free)) ∨
      (v.write f data = (.error .noSpace, f, v) ∧
        v.free < v.growth contents.length (start f contents + data.length)) := by
  have hroom := h.totalNeeded_le
  have hused := h.used_eq
  have hsize := h.reachable.wellformed.blockSize.1
  have hfree : v.free = v.blockCount - v.used := rfl
  have hlength {k : Key} {contents : Bytes} (hk : v.tree.get? k = some (.file contents)) :
      contents.length < Bytes.wordLimit := h.fits _ (Tree.mem_of_get? hk)
  refine ⟨⟨hroom, by omega⟩, ?lengths, ?writes⟩
  case lengths =>
    intro k contents hk
    exact ⟨hlength hk, Nat.mod_eq_of_lt (hlength hk)⟩
  case writes =>
    intro f data contents hm hg hw hk
    exact write_exact hsize hm hg hw hk (hlength hk)

/-- Two blocks are left for a file: 33 bytes are too many for it, 32 are not. -/
theorem two_blocks_left :
    let v := ((fresh 16 4).perform (.openFile [0x61] .creating)).volume
    let f : FileHandle := ⟨[[0x61]], 0, .creating, 0⟩
    v.free + v.totalNeeded = 4 ∧
    v.write f (List.replicate 33 1) = (.error .noSpace, f, v) ∧
    v.write f (List.replicate 32 1) = (.ok 32, { f with pos := 32 },
      v.put [[0x61]] (.file (written [] 0 (List.replicate 32 1)))) := by
  intro v f
  have hconfined : Confined v := .perform _ (.fresh 16 4 (by decide)) fun _ h => h
  obtain ⟨⟨-, hleft⟩, -, hwrite⟩ := hconfined.never_overcommitted
  have hk : v.tree.get? f.key = some (.file []) := rfl
  refine ⟨hleft, ?refused, ?room⟩
  case refused =>
    obtain ⟨pos, -, hends⟩ | ⟨he, -⟩ := hwrite f (List.replicate 33 1) [] rfl rfl rfl hk
    · obtain ⟨rfl, hfits⟩ := hends (by decide)
      exact absurd hfits (by decide)
    · exact he
  case room =>
    obtain ⟨pos, he, hends⟩ | ⟨-, hover⟩ := hwrite f (List.replicate 32 1) [] rfl rfl rfl hk
    · obtain ⟨rfl, -⟩ := hends (by decide)
      exact he
    · exact absurd hover (by decide)

/-- A byte at the last position makes a file that needs more blocks than the volume has. It goes
through all the same, since the new length is no word any more, and the handle is at the start. -/
theorem last_position_overcommits :
    let v := ((fresh 4096 128).perform (.openFile [0x61] .creating)).volume
    let f : FileHandle := ⟨[[0x61]], 0, .creating, 0⟩
    let last : FileHandle := { f with pos := 0xFFFFFFFF }
    (v.Confined ∧ v.mounted = true ∧ last.generation = v.generation ∧ last.flags.write = true ∧
      v.tree.get? last.key = some (.file []) ∧
      v.seek f (.start 0xFFFFFFFF) = (.ok 0xFFFFFFFF, last, v)) ∧
    v.free < v.growth 0 (last.pos + 1) ∧
    (v.write last [7]).1 = .ok 1 ∧ (v.write last [7]).2.1.pos = 0 ∧
    (v.write last [7]).2.2.blockCount < (v.write last [7]).2.2.totalNeeded := by
  intro v f last
  have hconfined : Confined v := .perform _ (.fresh 4096 128 (by decide)) fun _ h => h
  exact ⟨⟨hconfined, rfl, rfl, rfl, rfl, rfl⟩, by decide, by decide, by decide, by decide⟩

end Volume

end PanelLink
