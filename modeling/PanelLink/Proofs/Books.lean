import PanelLink.Store.Lawful

/-!
The books of a volume: what it counts of reads and of stale handles. Calls through a handle, writes
apart, change nothing else.
-/
namespace PanelLink.Volume

variable {u v w : Volume}

/-- The volumes are equal but for the recorded reads and the count of stale accesses. -/
def Same (v w : Volume) : Prop :=
  ∃ reads stale, w = { v with reads := reads, staleAccesses := stale }

namespace Same

theorem refl (v : Volume) : v.Same v :=
  ⟨v.reads, v.staleAccesses, rfl⟩

instance : Std.Refl Same := ⟨refl⟩

theorem trans (h : v.Same w) (h' : w.Same u) : v.Same u := by
  obtain ⟨_, _, rfl⟩ := h
  obtain ⟨reads, stale, rfl⟩ := h'
  exact ⟨reads, stale, rfl⟩

theorem tree (h : v.Same w) : w.tree = v.tree := by
  obtain ⟨reads, stale, rfl⟩ := h
  rfl

theorem formatted (h : v.Same w) : w.formatted = v.formatted := by
  obtain ⟨reads, stale, rfl⟩ := h
  rfl

theorem mounted (h : v.Same w) : w.mounted = v.mounted := by
  obtain ⟨reads, stale, rfl⟩ := h
  rfl

theorem generation (h : v.Same w) : w.generation = v.generation := by
  obtain ⟨reads, stale, rfl⟩ := h
  rfl

theorem readFault (h : v.Same w) : w.readFault = v.readFault := by
  obtain ⟨reads, stale, rfl⟩ := h
  rfl

end Same

theorem handleFailure_same (v : Volume) (generation : UInt32) :
    v.Same (v.handleFailure generation).2 := by
  unfold handleFailure
  split
  · exact .refl v
  · split
    · exact ⟨v.reads, v.staleAccesses + 1, rfl⟩
    · exact .refl v

theorem closeFile_same (v : Volume) (f : FileHandle) : v.Same (v.closeFile f).2 := by
  have h := v.handleFailure_same f.generation
  unfold closeFile
  split <;>
    · rename_i hf
      rwa [hf] at h

theorem closeDir_same (v : Volume) (h : DirHandle) : v.Same (v.closeDir h).2 := by
  have hv := v.handleFailure_same h.generation
  unfold closeDir
  split <;>
    · rename_i hf
      rwa [hf] at hv

theorem read_same (v : Volume) (f : FileHandle) (n : Nat) : v.Same (v.read f n).2.2 := by
  have hv := v.handleFailure_same f.generation
  unfold read
  rcases hf : v.handleFailure f.generation with ⟨_ | e, w⟩
  · obtain rfl := eq_of_handleFailure hf
    have hnoted : w.Same { w with reads := f.key :: w.reads } :=
      ⟨f.key :: w.reads, w.staleAccesses, rfl⟩
    dsimp only
    split
    · exact hnoted
    split
    · exact hnoted
    split <;> exact hnoted
  · rw [hf] at hv
    exact hv

theorem seek_same (v : Volume) (f : FileHandle) (whence : SeekFrom) :
    v.Same (v.seek f whence).2.2 := by
  have hv := v.handleFailure_same f.generation
  unfold seek
  rcases hf : v.handleFailure f.generation with ⟨_ | e, w⟩
  · obtain rfl := eq_of_handleFailure hf
    dsimp only
    split
    · split <;> exact .refl w
    · exact .refl w
  · rw [hf] at hv
    exact hv

theorem readDir_same (v : Volume) (h : DirHandle) : v.Same (v.readDir h).2.2 := by
  have hv := v.handleFailure_same h.generation
  unfold readDir
  rcases hf : v.handleFailure h.generation with ⟨_ | e, w⟩
  · obtain rfl := eq_of_handleFailure hf
    dsimp only
    split <;> exact .refl w
  · rw [hf] at hv
    exact hv

/-! ## Calls that leave the volume as it is -/

theorem stat_tree (v : Volume) (path : Bytes) : (v.stat path).2 = v := by
  unfold stat
  split
  · rfl
  split
  · rfl
  split <;> rfl

theorem openDir_tree (v : Volume) (path : Bytes) : (v.openDir path).2 = v := by
  unfold openDir
  split
  · rfl
  split
  · rfl
  split <;> rfl

theorem usedBlocks_tree (v : Volume) : v.usedBlocks.2 = v := by
  unfold usedBlocks
  split <;> rfl

end PanelLink.Volume
