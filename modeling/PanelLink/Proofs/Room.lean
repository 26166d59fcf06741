import PanelLink.Proofs.Calls
import PanelLink.Proofs.Sending

/-!
What holds of a volume after any calls: its tree is well-formed and its nodes fit into its blocks,
so the free blocks that the host is told are those left.
-/
namespace PanelLink

namespace Volume

variable {v w : Volume} {k : Key} {n old : Node} {path : Bytes}

/-! ## Used blocks -/

theorem used_eq_weight (v : Volume) : v.used = v.tree.weight v.blocks := by
  unfold used Tree.weight
  rw [List.sum, List.foldr_map]

theorem used_put_new (h : v.tree.get? k = none) : (v.put k n).used = v.used + v.blocks n := by
  rw [used_eq_weight, used_eq_weight]
  exact Tree.weight_insert_new v.blocks h

theorem used_put_old (hs : v.tree.Sorted) (h : v.tree.get? k = some old) :
    (v.put k n).used + v.blocks old = v.used + v.blocks n := by
  rw [used_eq_weight, used_eq_weight]
  exact hs.weight_insert_old v.blocks h

theorem used_erase_le (v : Volume) (k : Key) :
    used { v with tree := v.tree.erase k } ≤ v.used := by
  rw [used_eq_weight, used_eq_weight]
  exact Tree.weight_erase_le v.blocks k v.tree

theorem blocks_empty (v : Volume) (h : 0 < v.blockSize) : v.blocks (.file []) = 0 := by
  have hsmall : 0 + (v.blockSize - 1) < v.blockSize := by omega
  show (0 % Bytes.wordLimit + (v.blockSize - 1)) / v.blockSize = 0
  rw [Nat.zero_mod]
  exact Nat.div_eq_of_lt hsmall

/-! ## The invariant -/

/-- The tree is well-formed and fits, once there is one; the numbers of the geometry are words. -/
structure Wellformed (v : Volume) : Prop where
  formatted : v.mounted = true → v.formatted = true
  tree : v.formatted = true → v.tree.Wellformed
  room : v.formatted = true → v.used ≤ v.blockCount
  blockSize : 0 < v.blockSize ∧ v.blockSize < Bytes.wordLimit
  blockCount : v.blockCount < Bytes.wordLimit

theorem parentFailure_eq_none (h : v.parentFailure k = none) :
    v.tree.get? k.dropLast = some .dir := by
  unfold parentFailure at h
  split at h
  · assumption
  · cases h
  · cases h

namespace Wellformed

theorem same (h : v.Wellformed) (hw : v.Same w) : w.Wellformed := by
  obtain ⟨reads, stale, rfl⟩ := hw
  exact ⟨h.formatted, h.tree, h.room, h.blockSize, h.blockCount⟩

theorem put (h : v.Wellformed) (hk : v.tree.get? k ≠ some .dir)
    (hparent : v.tree.get? k.dropLast = some .dir) (hnames : ∀ name ∈ k, IsName name)
    (hroom : (v.put k n).used ≤ v.blockCount) : (v.put k n).Wellformed where
  formatted := h.formatted
  tree hf := (h.tree hf).insert hk hparent hnames n
  room _ := hroom
  blockSize := h.blockSize
  blockCount := h.blockCount

/-- A file that takes the place of a file needs room for what it is longer. -/
theorem put_file (h : v.Wellformed) (hm : v.mounted = true) {contents new : Bytes}
    (hk : v.tree.get? k = some (.file contents))
    (hroom : v.blocksFor new.length - v.blocksFor contents.length ≤ v.free) :
    (v.put k (.file new)).Wellformed := by
  have htree := h.tree (h.formatted hm)
  have hfits := h.room (h.formatted hm)
  have hused : (v.put k (.file new)).used + v.blocksFor contents.length =
      v.used + v.blocksFor new.length := used_put_old htree.sorted hk
  have hfree : v.free = v.blockCount - v.used := rfl
  have hnodir : v.tree.get? k ≠ some .dir := by
    rw [hk]
    exact nofun
  have hparent := htree.parents k _ (htree.ne_nil_of_file hk) hk
  exact h.put hnodir hparent (htree.names k _ hk) (by omega)

/-- What is new needs a directory to stand in, and room. -/
theorem put_new (h : v.Wellformed) (hm : v.mounted = true) (hpath : key path = .ok k)
    (hk : v.tree.get? k = none) (hparent : v.parentFailure k = none)
    (hroom : v.blocks n ≤ v.free) : (v.put k n).Wellformed := by
  have hfits := h.room (h.formatted hm)
  have hused : (v.put k n).used = v.used + v.blocks n := used_put_new hk
  have hfree : v.free = v.blockCount - v.used := rfl
  have hnodir : v.tree.get? k ≠ some .dir := by
    rw [hk]
    exact nofun
  exact h.put hnodir (parentFailure_eq_none hparent) (isName_of_key hpath) (by omega)

theorem openFile (h : v.Wellformed) (path : Bytes) (flags : OpenFlags) :
    (v.openFile path flags).2.Wellformed := by
  obtain ⟨e, he⟩ | ⟨k, hk, hm, ⟨c, hc, -, he⟩ | ⟨c, hc, -, he⟩ | ⟨hn, -, he⟩⟩ :=
    v.openFile_cases path flags
  · rw [he]
    exact h
  · rw [he]
    exact h
  · have hempty : v.blocksFor ([] : Bytes).length = 0 := v.blocks_empty h.blockSize.1
    rw [he]
    exact h.put_file hm hc (by rw [hempty, Nat.zero_sub]; exact Nat.zero_le _)
  · obtain ⟨hparent, -⟩ := openFile_new he hk hn
    rw [he]
    refine h.put_new hm hk hn hparent ?_
    rw [v.blocks_empty h.blockSize.1]
    exact Nat.zero_le _

theorem write (h : v.Wellformed) (f : FileHandle) (data : Bytes) :
    (v.write f data).2.2.Wellformed := by
  obtain ⟨e, w, he, hw⟩ | ⟨contents, hc, hm, hroom, he⟩ := v.write_cases f data
  · rw [he]
    exact h.same hw
  · rw [he]
    exact h.put_file hm hc hroom

theorem remove (h : v.Wellformed) (path : Bytes) : (v.remove path).2.Wellformed := by
  obtain ⟨e, he⟩ | ⟨k, n, -, -, hne, hn, hleaf, he⟩ := v.remove_cases path
  · rw [he]
    exact h
  · rw [he]
    constructor
    case formatted => exact h.formatted
    case tree => exact fun hf => (h.tree hf).erase hne hn hleaf
    case room => exact fun hf => Nat.le_trans (v.used_erase_le k) (h.room hf)
    case blockSize => exact h.blockSize
    case blockCount => exact h.blockCount

theorem mkdir (h : v.Wellformed) (path : Bytes) : (v.mkdir path).2.Wellformed := by
  obtain ⟨e, he⟩ | ⟨k, hk, hm, hn, hparent, hroom, he⟩ := v.mkdir_cases path
  · rw [he]
    exact h
  · rw [he]
    exact h.put_new hm hk hn hparent hroom

theorem format (h : v.Wellformed) : v.format.2.Wellformed := by
  unfold Volume.format
  split
  · exact h
  · rename_i hlarge
    constructor
    case formatted => exact fun _ => rfl
    case tree => exact fun _ => Tree.wellformed_root
    case room => exact fun _ => Nat.le_of_not_lt hlarge
    case blockSize => exact h.blockSize
    case blockCount => exact h.blockCount

theorem mount (h : v.Wellformed) : v.mount.2.Wellformed := by
  unfold Volume.mount
  split
  · rename_i hf
    exact ⟨fun _ => hf, h.tree, h.room, h.blockSize, h.blockCount⟩
  · exact h

/-- Every call keeps the volume well-formed, whether it fails or not. -/
theorem perform (h : v.Wellformed) (c : Call) : (v.perform c).volume.Wellformed := by
  cases c with
  | openFile path flags => exact h.openFile path flags
  | closeFile f => exact h.same (v.closeFile_same f)
  | read f n => exact h.same (v.read_same f n)
  | write f data => exact h.write f data
  | seek f whence => exact h.same (v.seek_same f whence)
  | stat path =>
    show (v.stat path).2.Wellformed
    rw [stat_tree]
    exact h
  | openDir path =>
    show (v.openDir path).2.Wellformed
    rw [openDir_tree]
    exact h
  | readDir d => exact h.same (v.readDir_same d)
  | closeDir d => exact h.same (v.closeDir_same d)
  | remove path => exact h.remove path
  | mkdir path => exact h.mkdir path
  | format => exact h.format
  | mount => exact h.mount
  | usedBlocks =>
    show v.usedBlocks.2.Wellformed
    rw [usedBlocks_tree]
    exact h

theorem blank (blockSize blockCount : UInt32) :
    (Volume.blank blockSize.toNat blockCount.toNat).Wellformed where
  formatted := nofun
  tree := nofun
  room := nofun
  blockSize := by
    have hlt := blockSize.toNat_lt
    show 0 < max blockSize.toNat 1 ∧ max blockSize.toNat 1 < 0x100000000
    omega
  blockCount := blockCount.toNat_lt

theorem fresh (blockSize : UInt32) {blockCount : UInt32} (h : dirBlocks ≤ blockCount.toNat) :
    (Volume.fresh blockSize.toNat blockCount.toNat).Wellformed where
  formatted _ := rfl
  tree _ := Tree.wellformed_root
  room _ := h
  blockSize := (blank blockSize blockCount).blockSize
  blockCount := blockCount.toNat_lt

end Wellformed

/-- The volumes that any calls make of a new one. -/
inductive Reachable : Volume → Prop
  | blank (blockSize blockCount : UInt32) : Reachable (blank blockSize.toNat blockCount.toNat)
  | fresh (blockSize blockCount : UInt32) (h : dirBlocks ≤ blockCount.toNat) :
      Reachable (fresh blockSize.toNat blockCount.toNat)
  | perform {v : Volume} (c : Call) : Reachable v → Reachable (v.perform c).volume
  | setReadFault {v : Volume} (path : Option Bytes) : Reachable v → Reachable (v.setReadFault path)

theorem Reachable.wellformed (h : v.Reachable) : v.Wellformed := by
  induction h with
  | blank blockSize blockCount => exact .blank blockSize blockCount
  | fresh blockSize blockCount h => exact .fresh blockSize h
  | perform c _ ih => exact ih.perform c
  | setReadFault path _ ih => exact ⟨ih.formatted, ih.tree, ih.room, ih.blockSize, ih.blockCount⟩

end Volume

/-! ## The free blocks that the host is told -/

section

variable {size chunk : Nat} {ε : Type} {e : Endpoint chunk FileHandle}
  {d : Device size Volume FileHandle} {transport : Transport ε} {bytes : Bytes} {p : Packet}
  {R : Pause → Device size Volume FileHandle → Device size Volume FileHandle → Prop}

def flashReply (free blockSize : UInt32) : Reply :=
  ⟨.flashRemaining, Bytes.ofWord free ++ Bytes.ofWord blockSize⟩

private theorem Handler.on_flashRemaining_mounted (hm : d.store.mounted = true)
    {s : Serving chunk FileHandle ε} :
    Handler.on (flashRemaining : Handler size chunk Volume FileHandle ε Reply) s d =
      .done (.ok (flashReply (UInt32.ofNat d.store.free) (UInt32.ofNat d.store.blockSize)), s)
        d := by
  have hused : FileStore.usedBlocks d.store = (.ok d.store.used, d.store) := by
    show d.store.usedBlocks = _
    simp only [Volume.usedBlocks, Volume.mountFailure, if_pos hm]
  rw [on_flashRemaining, hused]
  rfl

private theorem Request.flashRemaining_within (hm : d.store.mounted = true)
    (hdecode : Packet.decode bytes = .ok p) (hc : p.command = .flashRemaining)
    (ho : ∀ n, transport.refuse n = none) :
    ((Request.frame transport bytes).routine e d).Within R
      (fun x _ => x = (.served (.ok .flashRemaining)
        [flashReply (UInt32.ofNat d.store.free) (UInt32.ofNat d.store.blockSize)], e))
      (transport.waits 1) := by
  have hfree : (Outbox.empty transport).Free := ⟨rfl, ho⟩
  have hexecute : (Handler.execute p : Handler size chunk Volume FileHandle ε Reply) =
      Handler.flashRemaining := by
    unfold Handler.execute
    rw [hc]
  have hconclude := Conduct.conclude_within (R := R) (s := ⟨e, .empty transport⟩) (d := d) hfree
    (.ok (flashReply (UInt32.ofNat d.store.free) (UInt32.ofNat d.store.blockSize)))
  rw [Request.routine_frame, Conduct.on_serve _ _ hdecode, hexecute,
    Handler.on_flashRemaining_mounted hm]
  refine hconclude.next fun x w hx => ?_
  rw [hx]
  rfl

end

namespace Volume

/-- After any calls on a volume of any geometry, with any handles: there is a root, every key is a
path of names with a directory above it, no file has anything below it, and what is used is no more
than there is. So the sum over the nodes stays within a word at every step, and the host is told
just the blocks that are left. -/
theorem Reachable.shape_and_room {v : Volume} (h : v.Reachable) (hm : v.mounted = true) :
    v.tree.get? [] = some .dir ∧
    (∀ k n, v.tree.get? k = some n →
      (∀ name ∈ k, IsName name) ∧ key (List.intercalate [Path.slash] k) = .ok k ∧
      (k ≠ [] → v.tree.get? k.dropLast = some .dir)) ∧
    (∀ k contents rest, v.tree.get? k = some (.file contents) → rest ≠ [] →
      v.tree.get? (k ++ rest) = none) ∧
    (v.usedBlocks = (.ok v.used, v) ∧ v.used = (v.tree.nodes.map v.blocks).sum ∧
      (∀ m, ((v.tree.nodes.map v.blocks).take m).sum < Bytes.wordLimit) ∧
      v.used ≤ v.blockCount ∧ v.free + v.used = v.blockCount) ∧
    ∀ (size chunk : Nat) (ε : Type) (e : Endpoint chunk FileHandle)
      (d : Device size Volume FileHandle) (transport : Transport ε) (bytes : Bytes) (p : Packet)
      (R : Pause → Device size Volume FileHandle → Device size Volume FileHandle → Prop),
      d.store = v → Packet.decode bytes = .ok p → p.command = .flashRemaining →
      (∀ n, transport.refuse n = none) →
      ∃ free blockSize : UInt32, free.toNat + v.used = v.blockCount ∧
        blockSize.toNat = v.blockSize ∧
        ((Request.frame transport bytes).routine e d).Within R
          (fun x _ => x = (.served (.ok .flashRemaining) [flashReply free blockSize], e))
          (transport.waits 1) := by
  have hv := h.wellformed
  have htree := hv.tree (hv.formatted hm)
  have hroom := hv.room (hv.formatted hm)
  have hcount := hv.blockCount
  have hfree : v.free + v.used = v.blockCount := Nat.sub_add_cancel hroom
  refine ⟨htree.root, ?keys, ?files, ?room, ?told⟩
  case keys =>
    intro k n hk
    have hnames := htree.names k n hk
    exact ⟨hnames, key_intercalate hnames, fun hne => htree.parents k n hne hk⟩
  case files =>
    intro k contents rest hk hne
    exact htree.get?_below_file hk hne
  case room =>
    have hsum : v.used = (v.tree.nodes.map v.blocks).sum := v.used_eq_weight
    refine ⟨?_, hsum, fun m => ?_, hroom, hfree⟩
    · simp only [usedBlocks, mountFailure, if_pos hm]
    · have hparts := congrArg List.sum (List.take_append_drop m (v.tree.nodes.map v.blocks))
      rw [List.sum_append_nat] at hparts
      omega
  case told =>
    rintro size chunk ε e d transport bytes p R rfl hdecode hc ho
    have hfreeWord : (UInt32.ofNat d.store.free).toNat = d.store.free := by
      apply UInt32.toNat_ofNat_of_lt'
      show d.store.free < Bytes.wordLimit
      omega
    have hsizeWord : (UInt32.ofNat d.store.blockSize).toNat = d.store.blockSize :=
      UInt32.toNat_ofNat_of_lt' hv.blockSize.2
    refine ⟨UInt32.ofNat d.store.free, UInt32.ofNat d.store.blockSize, ?_, hsizeWord,
      Request.flashRemaining_within hm hdecode hc ho⟩
    rw [hfreeWord, hfree]

/-- A directory is made on a new volume of eight blocks. -/
theorem four_blocks_left :
    let v := ((((blank 512 8).perform .format).volume.perform .mount).volume.perform
      (.mkdir [0x61])).volume
    v.tree.get? [] = some .dir ∧ v.tree.get? [[0x61]] = some .dir ∧ v.used = 4 ∧
      v.free + v.used = 8 := by
  have hreach : Reachable ((((blank 512 8).perform .format).volume.perform .mount).volume.perform
      (.mkdir [0x61])).volume := .perform _ (.perform _ (.perform _ (.blank 512 8)))
  have h := hreach.shape_and_room (by decide)
  exact ⟨h.1, by decide, by decide, h.2.2.2.1.2.2.2.2⟩

end Volume

end PanelLink
