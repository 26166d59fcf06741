import PanelLink.Proofs.Backed
import PanelLink.Proofs.Books

/-! What the calls of a volume do to its files, and so of any store with a volume behind it. -/
namespace PanelLink

namespace Tree

theorem get?_insert (key : Key) (node : Node) (t : Tree) (k : Key) :
    (t.insert key node).get? k = if key = k then some node else t.get? k := by
  induction t with
  | nil => rfl
  | cons x t ih =>
    obtain ⟨k', n⟩ := x
    unfold insert
    by_cases h : k' = key
    · rw [if_pos h]
      subst h
      by_cases hk : k' = k
      · simp [get?, hk]
      · simp [get?, hk]
    rw [if_neg h]
    by_cases hlt : key < k'
    · rw [if_pos hlt]
      rfl
    rw [if_neg hlt]
    show (if k' = k then some n else (insert key node t).get? k) = _
    by_cases hk : k' = k
    · have hne : key ≠ k := fun he => h (hk.trans he.symm)
      simp [get?, hk, hne]
    · simp [get?, hk, ih]

theorem get?_erase (key : Key) (t : Tree) (k : Key) :
    (t.erase key).get? k = if k = key then none else t.get? k := by
  unfold erase
  induction t with
  | nil => simp [get?]
  | cons x t ih =>
    obtain ⟨k', n⟩ := x
    by_cases h : k' = key
    · rw [List.filter_cons_of_neg (by simpa using h), ih]
      subst h
      by_cases hk : k = k'
      · rw [if_pos hk, if_pos hk]
      · have hne : k' ≠ k := fun he => hk he.symm
        rw [if_neg hk, if_neg hk, get?, if_neg hne]
    · rw [List.filter_cons_of_pos (by simpa using h), get?, get?, ih]
      by_cases hk : k' = k
      · subst hk
        rw [if_pos rfl, if_neg h, if_pos rfl]
      · rw [if_neg hk, if_neg hk]

end Tree

namespace Volume

variable {v v' : Volume}

/-- Every file of `v` is in `v'` with the same contents. -/
def Spares (v v' : Volume) : Prop :=
  ∀ k contents, v.tree.get? k = some (.file contents) → v'.tree.get? k = some (.file contents)

theorem Spares.of_tree (h : v'.tree = v.tree) : v.Spares v' := by
  intro k contents hk
  rwa [h]

instance : Std.Refl Spares := ⟨fun _ => .of_tree rfl⟩

/-- A new entry takes the place of no file. -/
theorem Spares.put {k : Key} {n : Node} (h : v.tree.get? k = none) : v.Spares (v.put k n) := by
  intro k' contents hk
  have hne : k ≠ k' := by
    rintro rfl
    simp [h] at hk
  show (v.tree.insert k n).get? k' = _
  rw [Tree.get?_insert, if_neg hne, hk]

theorem slice_add (contents : Bytes) (pos m n : Nat) :
    slice contents pos (m + n) = slice contents pos m ++ slice contents (pos + m) n := by
  unfold slice
  rw [List.take_add, List.drop_drop]

/-- Behind what a read gives is what a read from there on gives. -/
theorem drop_eq_slice_append (contents : Bytes) (pos n : Nat) :
    contents.drop pos =
      slice contents pos n ++ contents.drop (pos + (slice contents pos n).length) := by
  have hrest : contents.drop (pos + (slice contents pos n).length) =
      (contents.drop pos).drop n := by
    rw [List.drop_drop, List.drop_eq_drop_iff, slice, List.length_take, List.length_drop]
    omega
  rw [hrest, slice, List.take_append_drop]

/-- Only at the end of the file a read gives nothing, unless it asks for nothing. -/
theorem drop_of_slice_eq_nil {contents : Bytes} {pos n : Nat} (h : slice contents pos n = [])
    (hn : 0 < n) : contents.drop pos = [] := by
  unfold slice at h
  obtain hn' | hdrop := List.take_eq_nil_iff.mp h
  · omega
  · exact hdrop

theorem contents?_eq_some {path contents : Bytes} (h : v.contents? path = some contents) :
    ∃ k, key path = .ok k ∧ v.tree.get? k = some (.file contents) := by
  unfold contents? at h
  cases hk : key path with
  | error e => simp [hk] at h
  | ok k =>
    rw [hk] at h
    rcases hn : v.tree.get? k with _ | body | _
    · simp [hn] at h
    · obtain ⟨held, rfl⟩ := body.exists_ofBytes
      obtain rfl : held = contents := by simpa [hn] using h
      exact ⟨k, rfl, hn⟩
    · simp [hn] at h

/-- What opening a file gives, and what it does to the tree. -/
theorem openFile_cases (v : Volume) (path : Bytes) (flags : OpenFlags) :
    (∃ e, v.openFile path flags = (.error e, v)) ∨
    ∃ k, key path = .ok k ∧ v.mounted = true ∧
      ((∃ contents, v.tree.get? k = some (.file contents) ∧
        (flags.truncate && flags.write) = false ∧
          v.openFile path flags = (.ok (v.handle k flags), v)) ∨
       (∃ contents, v.tree.get? k = some (.file contents) ∧ (flags.truncate && flags.write) = true ∧
          v.openFile path flags = (.ok (v.handle k flags), v.put k (.file []))) ∨
       (v.tree.get? k = none ∧ (flags.create && flags.write) = true ∧
          v.openFile path flags = (.ok (v.handle k flags), v.put k (.file [])))) := by
  unfold openFile mountFailure
  by_cases hm : v.mounted = true
  · rw [if_pos hm]
    dsimp only
    split
    · exact .inl ⟨_, rfl⟩
    cases hk : key path with
    | error e => exact .inl ⟨_, rfl⟩
    | ok k =>
      dsimp only
      cases hn : v.tree.get? k with
      | none =>
        dsimp only
        split
        · exact .inl ⟨_, rfl⟩
        rename_i hc
        cases hp : v.parentFailure k with
        | some e => exact .inl ⟨_, rfl⟩
        | none =>
          dsimp only
          split
          · exact .inl ⟨_, rfl⟩
          · exact .inr ⟨k, rfl, hm, .inr (.inr ⟨hn, by simpa using hc, rfl⟩)⟩
      | some n =>
        cases n with
        | dir => exact .inl ⟨_, rfl⟩
        | file contents =>
          dsimp only
          split
          · exact .inl ⟨_, rfl⟩
          split
          · rename_i ht
            exact .inr ⟨k, rfl, hm, .inr (.inl ⟨contents, hn, ht, rfl⟩)⟩
          · rename_i ht
            exact .inr ⟨k, rfl, hm, .inl ⟨contents, hn, by simpa using ht, rfl⟩⟩
  · rw [if_neg hm]
    exact .inl ⟨_, rfl⟩

/-- Opening a file empties none, unless the flags say so. -/
theorem openFile_spares (v : Volume) (path : Bytes) {flags : OpenFlags}
    (h : (flags.truncate && flags.write) = false) : v.Spares (v.openFile path flags).2 := by
  obtain ⟨e, he⟩ | ⟨k, -, -, ⟨c, -, -, he⟩ | ⟨c, -, ht, -⟩ | ⟨hn, -, he⟩⟩ :=
    v.openFile_cases path flags
  · rw [he]
    exact .of_tree rfl
  · rw [he]
    exact .of_tree rfl
  · simp [h] at ht
  · rw [he]
    exact .put hn

/-- What a read gives, and where it leads. -/
theorem read_cases (v : Volume) (f : FileHandle) (n : Nat) :
    (∃ e, (v.read f n).1 = .error e ∧ (v.read f n).2.1 = f) ∨
    ∃ contents, v.tree.get? f.key = some (.file contents) ∧
      (v.read f n).1 = .ok (slice contents f.pos n) ∧
      (v.read f n).2.1 =
        { f with pos := (f.pos + (slice contents f.pos n).length) % Bytes.wordLimit } := by
  unfold read
  rcases hf : v.handleFailure f.generation with ⟨_ | e, w⟩
  · obtain rfl := eq_of_handleFailure hf
    dsimp only
    split
    · exact .inl ⟨_, rfl, rfl⟩
    split
    · exact .inl ⟨_, rfl, rfl⟩
    split
    · exact .inl ⟨_, rfl, rfl⟩
    · exact .inl ⟨_, rfl, rfl⟩
    · rename_i body hc
      obtain ⟨contents, rfl⟩ := body.exists_ofBytes
      exact .inr ⟨contents, hc, rfl, rfl⟩
  · exact .inl ⟨e, rfl, rfl⟩

/-- A seek stays in its file, and one from the start leads where it says. -/
theorem seek_cases (v : Volume) (f : FileHandle) (whence : SeekFrom) :
    (v.seek f whence).2.1.key = f.key ∧ (v.seek f whence).2.1.flags = f.flags ∧
    ∀ n offset, (v.seek f whence).1 = .ok n → whence = .start offset →
      (v.seek f whence).2.1.pos = offset := by
  unfold seek
  rcases hf : v.handleFailure f.generation with ⟨_ | e, w⟩
  · obtain rfl := eq_of_handleFailure hf
    dsimp only
    split
    · split
      · exact ⟨rfl, rfl, by simp⟩
      · refine ⟨rfl, rfl, ?_⟩
        rintro n offset - rfl
        rfl
    · exact ⟨rfl, rfl, by simp⟩
  · exact ⟨rfl, rfl, by simp⟩

theorem stat_eq_ok {path : Bytes} {m : Metadata} (h : v.stat path = (.ok m, v')) :
    m.size < Bytes.wordLimit ∧ v' = v := by
  unfold stat at h
  split at h
  · simp at h
  split at h
  · simp at h
  split at h
  · simp at h
  · rename_i n _
    simp only [Prod.mk.injEq, Except.ok.injEq] at h
    obtain ⟨rfl, rfl⟩ := h
    refine ⟨?_, rfl⟩
    cases n with
    | file contents => exact Nat.mod_lt _ (by decide)
    | dir => exact (by decide : 0 < Bytes.wordLimit)

end Volume

theorem Passes.ok {α : Type} {v v' : Volume} {answer : Except StorageError α × Volume} {a : α}
    (h : Passes v answer (.ok a) v') : answer = (.ok a, v') := by
  obtain h | ⟨⟨e, he⟩, -⟩ := h
  · exact h.symm
  · cases he

namespace Backed

variable {σ φ δ : Type} [FileStore σ φ δ] [Backed σ φ δ]

/-- The node at `k` in the volume behind a store. -/
def node? (s : σ) (k : Key) : Option Node :=
  (volume s).tree.get? k

theorem openFile_ok {s s' : σ} {path : Bytes} {flags : OpenFlags} {f : φ}
    (h : FileStore.openFile s path flags = (.ok f, s')) :
    (volume s).openFile path flags = (.ok (file σ f), volume s') := by
  have hpass := openFile s path flags
  rw [h] at hpass
  exact hpass.ok

theorem stat_size_lt {s s' : σ} {path : Bytes} {m : Metadata}
    (h : FileStore.stat s path = (.ok m, s')) : m.size < Bytes.wordLimit := by
  have hpass := stat s path
  rw [h] at hpass
  exact (Volume.stat_eq_ok hpass.ok).1

theorem read_tree (s : σ) (f : φ) (n : Nat) :
    (volume (FileStore.read s f n).2.2).tree = (volume s).tree ∧
      (file σ (FileStore.read s f n).2.1).key = (file σ f).key ∧
      (file σ (FileStore.read s f n).2.1).flags = (file σ f).flags := by
  obtain ⟨m, -, hpass⟩ := read s f n
  have htree := ((volume s).read_same (file σ f) m).tree
  have hread := (volume s).read_cases (file σ f) m
  obtain h | ⟨-, hf, hv⟩ := hpass
  · rw [← h] at htree hread
    obtain ⟨e, -, hf⟩ | ⟨contents, -, -, hf⟩ := hread
    · exact ⟨htree, by rw [show file σ _ = _ from hf], by rw [show file σ _ = _ from hf]⟩
    · exact ⟨htree, by rw [show file σ _ = _ from hf], by rw [show file σ _ = _ from hf]⟩
  · exact ⟨by rw [hv], by rw [hf], by rw [hf]⟩

/-- A seek changes no file and stays in its own; from the start it leads where it says. -/
theorem seek_tree (s : σ) (f : φ) (whence : SeekFrom) :
    (volume (FileStore.seek s f whence).2.2).tree = (volume s).tree ∧
      (file σ (FileStore.seek s f whence).2.1).key = (file σ f).key ∧
      (file σ (FileStore.seek s f whence).2.1).flags = (file σ f).flags ∧
      ∀ n offset, (FileStore.seek s f whence).1 = .ok n → whence = .start offset →
        (file σ (FileStore.seek s f whence).2.1).pos = offset := by
  have htree := ((volume s).seek_same (file σ f) whence).tree
  obtain ⟨hkey, hflags, hpos⟩ := (volume s).seek_cases (file σ f) whence
  obtain h | ⟨⟨e, he⟩, hf, hv⟩ := seek s f whence
  · rw [← h] at htree hkey hflags hpos
    exact ⟨htree, hkey, hflags, hpos⟩
  · rw [hf, hv]
    refine ⟨rfl, rfl, rfl, ?_⟩
    simp [he]

/-- A read that gives bytes gives those of the file that follow the position. -/
theorem read_eq_ok {s s' : σ} {f f' : φ} {n : Nat} {bytes : Bytes}
    (h : FileStore.read s f n = (.ok bytes, f', s')) :
    ∃ contents, node? s (file σ f).key = some (.file contents) ∧
      bytes = Volume.slice contents (file σ f).pos bytes.length ∧ bytes.length ≤ n ∧
      (file σ f').pos = ((file σ f).pos + bytes.length) % Bytes.wordLimit := by
  obtain ⟨m, hm, hpass⟩ := read s f n
  rw [h] at hpass
  have hread := (volume s).read_cases (file σ f) m
  obtain hv | ⟨⟨e, he⟩, -⟩ := hpass
  · rw [← hv] at hread
    obtain ⟨e, he, -⟩ | ⟨contents, hc, hb, hf⟩ := hread
    · cases he
    · obtain rfl := Except.ok.inj hb
      have hle : (Volume.slice contents (file σ f).pos m).length ≤ m := List.length_take_le _ _
      refine ⟨contents, hc, ?_, Nat.le_trans hle hm, by rw [show file σ f' = _ from hf]⟩
      unfold Volume.slice
      rw [List.length_take, List.take_eq_take_iff]
      simp
  · cases he

theorem gather_tree (tries want : Nat) (s : σ) (f : φ) :
    (volume (FileStore.gather tries want s f).2.2).tree = (volume s).tree ∧
    (file σ (FileStore.gather tries want s f).2.1).key = (file σ f).key := by
  induction tries generalizing want s f with
  | zero =>
    unfold FileStore.gather
    exact ⟨rfl, rfl⟩
  | succ tries ih =>
    cases want with
    | zero =>
      unfold FileStore.gather
      exact ⟨rfl, rfl⟩
    | succ want =>
      obtain ⟨htree, hkey, -⟩ := read_tree s f (want + 1)
      unfold FileStore.gather
      rcases hr : FileStore.read s f (want + 1) with ⟨e | bytes, f', s'⟩
      · rw [hr] at htree hkey
        exact ⟨htree, hkey⟩
      rw [hr] at htree hkey
      cases bytes with
      | nil => exact ⟨htree, hkey⟩
      | cons b bs =>
        obtain ⟨htree', hkey'⟩ := ih (want - bs.length) s' f'
        exact ⟨htree'.trans htree, hkey'.trans hkey⟩

/-- The bytes gathered in pieces are those of the file that follow the position, as long as they do
not go past the last position. -/
theorem gather_bytes (tries : Nat) {want : Nat} {s : σ} {f : φ}
    (hroom : (file σ f).pos + want ≤ Bytes.wordLimit) :
    (FileStore.gather tries want s f).1.bytes = [] ∨
      ∃ contents, node? s (file σ f).key = some (.file contents) ∧
        (FileStore.gather tries want s f).1.bytes = Volume.slice contents (file σ f).pos
          (FileStore.gather tries want s f).1.bytes.length := by
  induction tries generalizing want s f with
  | zero =>
    unfold FileStore.gather
    exact .inl rfl
  | succ tries ih =>
    cases want with
    | zero =>
      unfold FileStore.gather
      exact .inl rfl
    | succ want =>
      obtain ⟨htree, hkey, -⟩ := read_tree s f (want + 1)
      unfold FileStore.gather
      rcases hr : FileStore.read s f (want + 1) with ⟨e | bytes, f', s'⟩
      · exact .inl rfl
      rw [hr] at htree hkey
      cases bytes with
      | nil => exact .inl rfl
      | cons b bs =>
        obtain ⟨contents, hc, hb, hle, hpos⟩ := read_eq_ok hr
        dsimp only
        refine .inr ⟨contents, hc, ?_⟩
        have hrest : (FileStore.gather tries (want - bs.length) s' f').1.bytes =
            Volume.slice contents ((file σ f).pos + (b :: bs).length)
              (FileStore.gather tries (want - bs.length) s' f').1.bytes.length := by
          rw [List.length_cons] at hle hpos
          -- The position begins again only when nothing is missing any more.
          by_cases hlast : (file σ f).pos + (bs.length + 1) = Bytes.wordLimit
          · have hnone : want - bs.length = 0 := by omega
            rw [hnone]
            cases tries <;> rfl
          · rw [Nat.mod_eq_of_lt (by omega)] at hpos
            have hless : (file σ f').pos + (want - bs.length) ≤ Bytes.wordLimit := by omega
            obtain hnil | ⟨contents', hc', hb'⟩ := ih hless (s := s')
            · rw [hnil]
              rfl
            · rw [node?, hkey, htree] at hc'
              obtain rfl := Node.file.inj (Option.some.inj (hc'.symm.trans hc))
              rwa [hpos] at hb'
        rw [List.length_append, Volume.slice_add, ← hb, ← hrest]

theorem length_gather_le (tries want : Nat) (s : σ) (f : φ) :
    (FileStore.gather tries want s f).1.bytes.length ≤ want := by
  induction tries generalizing want s f with
  | zero =>
    unfold FileStore.gather
    exact Nat.zero_le _
  | succ tries ih =>
    cases want with
    | zero =>
      unfold FileStore.gather
      exact Nat.zero_le _
    | succ want =>
      unfold FileStore.gather
      rcases hr : FileStore.read s f (want + 1) with ⟨e | bytes, f', s'⟩
      · exact Nat.zero_le _
      cases bytes with
      | nil => exact Nat.zero_le _
      | cons b bs =>
        obtain ⟨-, -, -, hle, -⟩ := read_eq_ok hr
        have hrest := ih (want - bs.length) s' f'
        simp only [List.length_cons, List.length_append] at hle ⊢
        omega

end Backed

end PanelLink
