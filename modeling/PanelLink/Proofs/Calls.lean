import PanelLink.Proofs.Ledger
import PanelLink.Proofs.Plain
import PanelLink.Proofs.Trees

/-!
A volume as a file system: what each call does to the files, the directories and the handle that it
is given, and that a call which fails does nothing.
-/
namespace PanelLink

namespace Volume

/-! ## Calls -/

/-- A call with its arguments. The handles are arbitrary: they may be stale, and the files of their
keys may be gone or made anew. -/
inductive Call where
  | openFile (path : Bytes) (flags : OpenFlags)
  | closeFile (f : FileHandle)
  | read (f : FileHandle) (n : Nat)
  | write (f : FileHandle) (data : Bytes)
  | seek (f : FileHandle) (whence : SeekFrom)
  | stat (path : Bytes)
  | openDir (path : Bytes)
  | readDir (h : DirHandle)
  | closeDir (h : DirHandle)
  | remove (path : Bytes)
  | mkdir (path : Bytes)
  | format
  | mount
  | usedBlocks

def Call.handle : Call → CommandHandle FileHandle DirHandle
  | closeFile f | read f _ | write f _ | seek f _ => .file f
  | readDir h | closeDir h => .dir h
  | _ => .none

structure Result where
  failure : Option StorageError
  handle : CommandHandle FileHandle DirHandle
  volume : Volume

def failure {α : Type} : Except StorageError α → Option StorageError
  | .error e => some e
  | .ok _ => none

def answer {α : Type} (handle : CommandHandle FileHandle DirHandle)
    (r : Except StorageError α × Volume) :
    Result :=
  ⟨failure r.1, handle, r.2⟩

def perform (v : Volume) : Call → Result
  | .openFile path flags =>
    let (r, w) := v.openFile path flags
    ⟨failure r, match r with | .ok f => .file f | .error _ => .none, w⟩
  | .closeFile f => answer (.file f) (v.closeFile f)
  | .read f n =>
    let (r, f, w) := v.read f n
    ⟨failure r, .file f, w⟩
  | .write f data =>
    let (r, f, w) := v.write f data
    ⟨failure r, .file f, w⟩
  | .seek f whence =>
    let (r, f, w) := v.seek f whence
    ⟨failure r, .file f, w⟩
  | .stat path => answer .none (v.stat path)
  | .openDir path =>
    let (r, w) := v.openDir path
    ⟨failure r, match r with | .ok h => .dir h | .error _ => .none, w⟩
  | .readDir h =>
    let (r, h, w) := v.readDir h
    ⟨failure r, .dir h, w⟩
  | .closeDir h => answer (.dir h) (v.closeDir h)
  | .remove path => answer .none (v.remove path)
  | .mkdir path => answer .none (v.mkdir path)
  | .format => answer .none v.format
  | .mount => answer .none v.mount
  | .usedBlocks => answer .none v.usedBlocks

/-! ## What each call does -/

variable {v w : Volume} {f f' : FileHandle} {path data : Bytes} {k : Key} {flags : OpenFlags}

theorem seek_failed (v : Volume) (f : FileHandle) (whence : SeekFrom) {e : StorageError}
    (h : (v.seek f whence).1 = .error e) : (v.seek f whence).2.1 = f := by
  unfold seek at h ⊢
  rcases hf : v.handleFailure f.generation with ⟨_ | x, w⟩
  · rw [hf] at h
    dsimp only at h ⊢
    split
    · split
      · rfl
      · simp_all
    · rfl
  · rfl

theorem readDir_failed (v : Volume) (h : DirHandle) {e : StorageError}
    (he : (v.readDir h).1 = .error e) : (v.readDir h).2.1 = h := by
  unfold readDir at he ⊢
  rcases hf : v.handleFailure h.generation with ⟨_ | x, w⟩
  · rw [hf] at he
    dsimp only at he ⊢
    split
    · rfl
    · simp_all
  · rfl

/-- The position at which a write through the handle begins. -/
def start (f : FileHandle) (contents : Bytes) : Nat :=
  if f.flags.append then contents.length else f.pos

/-- A write that goes through has found its file, and room for what the file grows by. -/
theorem write_cases (v : Volume) (f : FileHandle) (data : Bytes) :
    (∃ e w, v.write f data = (.error e, f, w) ∧ v.Same w) ∨
    ∃ contents, v.tree.get? f.key = some (.file contents) ∧ v.mounted = true ∧
      v.blocksFor (written contents (start f contents) data).length - v.blocksFor contents.length ≤
        v.free ∧
      v.write f data = (.ok data.length,
        { f with pos := (start f contents + data.length) % Bytes.wordLimit },
        v.put f.key (.file (written contents (start f contents) data))) := by
  have hv := v.handleFailure_same f.generation
  unfold write
  rcases hf : v.handleFailure f.generation with ⟨_ | e, w⟩
  · obtain rfl := eq_of_handleFailure hf
    have hm : w.mounted = true := by
      unfold handleFailure at hf
      cases h : w.mounted with
      | true => rfl
      | false => simp [h] at hf
    dsimp only
    split
    · exact .inl ⟨_, w, rfl, .refl w⟩
    split
    · exact .inl ⟨_, w, rfl, .refl w⟩
    · exact .inl ⟨_, w, rfl, .refl w⟩
    · rename_i body hc
      obtain ⟨contents, rfl⟩ := body.exists_ofBytes
      have hstart : (if f.flags.append = true then (Body.ofBytes contents).length else f.pos) =
          start f contents := rfl
      rw [hstart, writtenBody_eq, Body.bytes_ofBytes, Body.length_ofBytes]
      split
      · exact .inl ⟨_, w, rfl, .refl w⟩
      · rename_i hroom
        refine .inr ⟨contents, hc, hm, ?_, rfl⟩
        rw [length_written]
        exact Nat.le_of_not_lt hroom
  · rw [hf] at hv
    exact .inl ⟨e, w, rfl, hv⟩

/-- A file that is made has a directory to stand in and a block to spare. -/
theorem openFile_new {w : Volume} (h : v.openFile path flags = (.ok f, w)) (hk : key path = .ok k)
    (hnone : v.tree.get? k = none) : v.parentFailure k = none ∧ 0 < v.free := by
  unfold openFile at h
  split at h
  · cases h
  split at h
  · cases h
  rw [hk] at h
  dsimp only at h
  rw [hnone] at h
  dsimp only at h
  split at h
  · cases h
  split at h
  · cases h
  rename_i hparent
  split at h
  · cases h
  · rename_i hfree
    exact ⟨hparent, Nat.pos_of_ne_zero hfree⟩

/-- A directory that is made takes the place of nothing. -/
theorem mkdir_cases (v : Volume) (path : Bytes) :
    (∃ e, v.mkdir path = (.error e, v)) ∨
    ∃ k, key path = .ok k ∧ v.mounted = true ∧ v.tree.get? k = none ∧ v.parentFailure k = none ∧
      dirBlocks ≤ v.free ∧ v.mkdir path = (.ok (), v.put k .dir) := by
  unfold mkdir mountFailure
  by_cases hm : v.mounted = true
  · rw [if_pos hm]
    dsimp only
    cases hk : key path with
    | error e => exact .inl ⟨_, rfl⟩
    | ok k =>
      dsimp only
      split
      · exact .inl ⟨_, rfl⟩
      rename_i hsome
      split
      · exact .inl ⟨_, rfl⟩
      rename_i hparent
      split
      · exact .inl ⟨_, rfl⟩
      · rename_i hfree
        have hnone : v.tree.get? k = none := Option.not_isSome_iff_eq_none.mp hsome
        exact .inr ⟨k, rfl, hm, hnone, hparent, Nat.le_of_not_lt hfree, rfl⟩
  · rw [if_neg hm]
    exact .inl ⟨_, rfl⟩

/-- What is removed is not the root and has nothing in it. -/
theorem remove_cases (v : Volume) (path : Bytes) :
    (∃ e, v.remove path = (.error e, v)) ∨
    ∃ k n, key path = .ok k ∧ v.mounted = true ∧ k ≠ [] ∧ v.tree.get? k = some n ∧
      (n = .dir → v.tree.children k = []) ∧
      v.remove path = (.ok (), { v with tree := v.tree.erase k }) := by
  unfold remove mountFailure
  by_cases hm : v.mounted = true
  · rw [if_pos hm]
    dsimp only
    cases hk : key path with
    | error e => exact .inl ⟨_, rfl⟩
    | ok k =>
      dsimp only
      split
      · exact .inl ⟨_, rfl⟩
      rename_i hne
      cases hn : v.tree.get? k with
      | none => exact .inl ⟨_, rfl⟩
      | some n =>
        dsimp only
        split
        · exact .inl ⟨_, rfl⟩
        · rename_i hleaf
          have hempty (hdir : n = .dir) : v.tree.children k = [] :=
            Decidable.not_not.mp fun h => hleaf ⟨hdir, h⟩
          exact .inr ⟨k, n, rfl, hm, hne, hn, hempty, rfl⟩
  · rw [if_neg hm]
    exact .inl ⟨_, rfl⟩

/-! ## The failure of a call -/

theorem format_failed {e : StorageError} (h : failure v.format.1 = some e) : v.format.2 = v := by
  unfold format at h ⊢
  split at h
  · rename_i hsmall
    rw [if_pos hsmall]
  · cases h

private theorem mount_failed {e : StorageError} (h : failure v.mount.1 = some e) :
    v.mount.2 = v := by
  unfold mount at h ⊢
  split at h
  · cases h
  · rename_i hformatted
    rw [if_neg hformatted]

/-- A call that fails leaves the handle that it was given and the whole volume but for its books. -/
theorem perform_failed {c : Call} {e : StorageError} (h : (v.perform c).failure = some e) :
    (v.perform c).handle = c.handle ∧ v.Same (v.perform c).volume := by
  cases c with
  | openFile path flags =>
    obtain ⟨e, he⟩ | ⟨k, -, -, ⟨_, -, -, he⟩ | ⟨_, -, -, he⟩ | ⟨-, -, he⟩⟩ :=
      v.openFile_cases path flags
    · simp only [perform, he]
      exact ⟨rfl, .refl v⟩
    all_goals simp [perform, he, failure] at h
  | closeFile f => exact ⟨rfl, v.closeFile_same f⟩
  | read f n =>
    obtain ⟨e', he, hf⟩ | ⟨_, -, he, -⟩ := v.read_cases f n
    · simp only [perform, hf, Call.handle, true_and]
      exact v.read_same f n
    · simp [perform, he, failure] at h
  | write f data =>
    obtain ⟨e', w, he, hw⟩ | ⟨_, -, -, -, he⟩ := v.write_cases f data
    · simp only [perform, he]
      exact ⟨rfl, hw⟩
    · simp [perform, he, failure] at h
  | seek f whence =>
    cases hr : (v.seek f whence).1 with
    | ok n => simp [perform, hr, failure] at h
    | error e' =>
      simp only [perform, v.seek_failed f whence hr, Call.handle, true_and]
      exact v.seek_same f whence
  | stat path =>
    simp only [perform, answer, stat_tree, Call.handle, true_and]
    exact .refl v
  | openDir path =>
    cases hr : (v.openDir path).1 with
    | ok d => simp [perform, hr, failure] at h
    | error e' =>
      simp only [perform, hr, openDir_tree, Call.handle, true_and]
      exact .refl v
  | readDir d =>
    cases hr : (v.readDir d).1 with
    | ok n => simp [perform, hr, failure] at h
    | error e' =>
      simp only [perform, v.readDir_failed d hr, Call.handle, true_and]
      exact v.readDir_same d
  | closeDir d => exact ⟨rfl, v.closeDir_same d⟩
  | remove path =>
    obtain ⟨e, he⟩ | ⟨_, _, -, -, -, -, -, he⟩ := v.remove_cases path
    · simp only [perform, answer, he]
      exact ⟨rfl, .refl v⟩
    · simp [perform, answer, he, failure] at h
  | mkdir path =>
    obtain ⟨e, he⟩ | ⟨_, -, -, -, -, -, he⟩ := v.mkdir_cases path
    · simp only [perform, answer, he]
      exact ⟨rfl, .refl v⟩
    · simp [perform, answer, he, failure] at h
  | format =>
    simp only [perform, answer, format_failed h, Call.handle, true_and]
    exact .refl v
  | mount =>
    simp only [perform, answer, mount_failed h, Call.handle, true_and]
    exact .refl v
  | usedBlocks =>
    simp only [perform, answer, usedBlocks_tree, Call.handle, true_and]
    exact .refl v

/-! ## The files -/

private theorem get?_put (v : Volume) (k : Key) (n : Node) (k' : Key) :
    (v.put k n).tree.get? k' = if k = k' then some n else v.tree.get? k' :=
  Tree.get?_insert k n v.tree k'

theorem get?_put_self (v : Volume) (k : Key) (n : Node) : (v.put k n).tree.get? k = some n := by
  rw [get?_put, if_pos rfl]

theorem get?_put_of_ne (v : Volume) (k : Key) (n : Node) (k' : Key) (h : k' ≠ k) :
    (v.put k n).tree.get? k' = v.tree.get? k' := by
  rw [get?_put, if_neg h.symm]

/-- Byte by byte: the data where it was written, the old contents around it, zeros between them. -/
theorem getElem?_written (contents : Bytes) (start : Nat) (data : Bytes) (i : Nat) :
    (written contents start data)[i]? =
      if start ≤ i ∧ i < start + data.length then data[i - start]?
      else if i < contents.length then contents[i]?
      else if i < start then some 0
      else none := by
  have hpad : (contents.padTo start)[i]? =
      if i < contents.length then contents[i]? else if i < start then some 0 else none := by
    unfold Bytes.padTo
    by_cases hold : i < contents.length
    · rw [List.getElem?_append_left hold, if_pos hold]
    · rw [List.getElem?_append_right (Nat.le_of_not_lt hold), if_neg hold, List.getElem?_replicate]
      by_cases hgap : i < start
      · rw [if_pos hgap, if_pos (by omega)]
      · rw [if_neg hgap, if_neg (by omega)]
  have hfront : ((contents.padTo start).take start).length = start := by
    rw [List.length_take, Bytes.length_padTo]
    omega
  rw [← hpad]
  unfold written Bytes.overlay
  rw [List.append_assoc]
  by_cases hbefore : i < start
  · rw [if_neg (by omega), List.getElem?_append_left (by omega), List.getElem?_take_of_lt hbefore]
  rw [List.getElem?_append_right (by omega), hfront]
  by_cases hdata : i < start + data.length
  · rw [if_pos (by omega), List.getElem?_append_left (by omega)]
  · have hback : start + data.length + (i - start - data.length) = i := by omega
    rw [if_neg (by omega), List.getElem?_append_right (by omega), List.getElem?_drop, hback]

theorem write_eq_ok {n : Nat} (h : v.write f data = (.ok n, f', w)) :
    ∃ old, v.tree.get? f.key = some (.file old) ∧ n = data.length ∧
      f' = { f with pos := (start f old + data.length) % Bytes.wordLimit } ∧
      w = v.put f.key (.file (written old (start f old) data)) := by
  obtain ⟨_, _, he, -⟩ | ⟨old, hold, -, -, he⟩ := v.write_cases f data
  · rw [he] at h
    cases h
  · rw [he] at h
    cases h
    exact ⟨old, hold, rfl, rfl, rfl⟩

/-- The handle is new, and at most the file that it is for was made or emptied. -/
theorem openFile_eq_ok (h : v.openFile path flags = (.ok f, w)) :
    key path = .ok f.key ∧ f = v.handle f.key flags ∧
      ((∃ contents, v.tree.get? f.key = some (.file contents) ∧
          (flags.truncate && flags.write) = false ∧ w = v) ∨
        w = v.put f.key (.file []) ∧
          ((∃ contents, v.tree.get? f.key = some (.file contents) ∧
              (flags.truncate && flags.write) = true) ∨
            v.tree.get? f.key = none ∧ (flags.create && flags.write) = true)) := by
  obtain ⟨e, he⟩ | ⟨k, hk, -, ⟨c, hc, ht, he⟩ | ⟨c, hc, ht, he⟩ | ⟨hn, ht, he⟩⟩ :=
    v.openFile_cases path flags
  · rw [he] at h
    cases h
  all_goals
    rw [he] at h
    cases h
  · exact ⟨hk, rfl, .inl ⟨c, hc, ht, rfl⟩⟩
  · exact ⟨hk, rfl, .inr ⟨rfl, .inl ⟨c, hc, ht⟩⟩⟩
  · exact ⟨hk, rfl, .inr ⟨rfl, .inr ⟨hn, ht⟩⟩⟩

theorem remove_eq_ok (h : v.remove path = (.ok (), w)) :
    ∃ k n, key path = .ok k ∧ k ≠ [] ∧ v.tree.get? k = some n ∧
      w = { v with tree := v.tree.erase k } := by
  obtain ⟨_, he⟩ | ⟨k, n, hk, -, hne, hn, -, he⟩ := v.remove_cases path
  · rw [he] at h
    cases h
  · rw [he] at h
    cases h
    exact ⟨k, n, hk, hne, hn, rfl⟩

theorem mkdir_eq_ok (h : v.mkdir path = (.ok (), w)) :
    ∃ k, key path = .ok k ∧ v.tree.get? k = none ∧ w = v.put k .dir := by
  obtain ⟨_, he⟩ | ⟨k, hk, -, hn, -, -, he⟩ := v.mkdir_cases path
  · rw [he] at h
    cases h
  · rw [he] at h
    cases h
    exact ⟨k, hk, hn, rfl⟩

/-- The calls that may change the tree. -/
def Call.alters : Call → Bool
  | openFile .. | write .. | remove _ | mkdir _ | format => true
  | _ => false

theorem perform_tree {c : Call} (h : c.alters = false) : (v.perform c).volume.tree = v.tree := by
  cases c with
  | openFile | write | remove | mkdir | format => cases h
  | closeFile f => exact (v.closeFile_same f).tree
  | read f n => exact (v.read_same f n).tree
  | seek f whence => exact (v.seek_same f whence).tree
  | stat path => exact congrArg tree (v.stat_tree path)
  | openDir path => exact congrArg tree (v.openDir_tree path)
  | readDir d => exact (v.readDir_same d).tree
  | closeDir d => exact (v.closeDir_same d).tree
  | mount =>
    show v.mount.2.tree = v.tree
    unfold mount
    split <;> rfl
  | usedBlocks => exact congrArg tree v.usedBlocks_tree

/-- A write lays its data over the file of the handle, zeros filling a gap, and changes no other. A
read gives the bytes of the file that follow the position. Opening, removing and making a directory
change at most the entry that they name, and a call that fails changes nothing. -/
theorem file_system (v : Volume) :
    (∀ f data n f' w, v.write f data = (.ok n, f', w) → ∃ old new s,
      v.tree.get? f.key = some (.file old) ∧ w.tree.get? f.key = some (.file new) ∧
      (∀ k, k ≠ f.key → w.tree.get? k = v.tree.get? k) ∧
      n = data.length ∧ s = (if f.flags.append then old.length else f.pos) ∧
      new.length = max old.length (s + data.length) ∧
      (∀ i, new[i]? =
        if s ≤ i ∧ i < s + data.length then data[i - s]?
        else if i < old.length then old[i]?
        else if i < s then some 0
        else none) ∧
      (s + data.length < Bytes.wordLimit → f' = { f with pos := s + data.length })) ∧
    (∀ f n bytes f' w, v.read f n = (.ok bytes, f', w) → ∃ contents,
      v.tree.get? f.key = some (.file contents) ∧ bytes = (contents.drop f.pos).take n ∧
      (f.pos + bytes.length < Bytes.wordLimit → f' = { f with pos := f.pos + bytes.length }) ∧
      w.tree = v.tree) ∧
    (∀ path flags f w, v.openFile path flags = (.ok f, w) →
      key path = .ok f.key ∧ f = ⟨f.key, 0, flags, v.generation⟩ ∧
      (∀ k, k ≠ f.key → w.tree.get? k = v.tree.get? k) ∧
      ((∃ contents, v.tree.get? f.key = some (.file contents) ∧
          (flags.truncate && flags.write) = false ∧ w.tree = v.tree) ∨
        w.tree.get? f.key = some (.file []) ∧
          ((∃ contents, v.tree.get? f.key = some (.file contents) ∧
              (flags.truncate && flags.write) = true) ∨
            v.tree.get? f.key = none ∧ (flags.create && flags.write) = true))) ∧
    (∀ path w, v.remove path = (.ok (), w) → ∃ k, key path = .ok k ∧ k ≠ [] ∧
      v.tree.get? k ≠ none ∧ w.tree.get? k = none ∧
      ∀ k', k' ≠ k → w.tree.get? k' = v.tree.get? k') ∧
    (∀ path w, v.mkdir path = (.ok (), w) → ∃ k, key path = .ok k ∧
      v.tree.get? k = none ∧ w.tree.get? k = some .dir ∧
      ∀ k', k' ≠ k → w.tree.get? k' = v.tree.get? k') ∧
    (∀ c : Call, c.alters = false → (v.perform c).volume.tree = v.tree) ∧
    (∀ c e, (v.perform c).failure = some e →
      (v.perform c).handle = c.handle ∧ v.Same (v.perform c).volume) := by
  refine ⟨?write, ?read, ?openFile, ?remove, ?mkdir, fun c => perform_tree,
    fun c e => perform_failed⟩
  case write =>
    intro f data n f' w h
    obtain ⟨old, hold, rfl, rfl, rfl⟩ := write_eq_ok h
    refine ⟨old, _, start f old, hold, v.get?_put_self _ _, v.get?_put_of_ne _ _, rfl, rfl,
      length_written _ _ _, getElem?_written _ _ _, fun hlt => ?_⟩
    rw [Nat.mod_eq_of_lt hlt]
  case read =>
    intro f n bytes f' w h
    obtain ⟨contents, hold, hbytes, rfl, htree⟩ := read_eq_ok h
    refine ⟨contents, hold, hbytes, fun hlt => ?_, htree⟩
    rw [Nat.mod_eq_of_lt hlt]
  case openFile =>
    intro path flags f w h
    obtain ⟨hk, hf, ⟨c, hc, ht, rfl⟩ | ⟨rfl, hold⟩⟩ := openFile_eq_ok h
    · exact ⟨hk, hf, fun _ _ => rfl, .inl ⟨c, hc, ht, rfl⟩⟩
    · exact ⟨hk, hf, v.get?_put_of_ne _ _, .inr ⟨v.get?_put_self _ _, hold⟩⟩
  case remove =>
    intro path w h
    obtain ⟨k, n, hk, hne, hn, rfl⟩ := remove_eq_ok h
    refine ⟨k, hk, hne, by simp [hn], ?_, fun k' hne' => ?_⟩
    · exact (Tree.get?_erase k v.tree k).trans (if_pos rfl)
    · exact (Tree.get?_erase k v.tree k').trans (if_neg hne')
  case mkdir =>
    intro path w h
    obtain ⟨k, hk, hn, rfl⟩ := mkdir_eq_ok h
    exact ⟨k, hk, hn, v.get?_put_self _ _, v.get?_put_of_ne _ _⟩

/-- A file of three bytes that a handle is two bytes past the end of. -/
theorem write_past_end :
    let v := (fresh 16 64).put [[0x61]] (.file [1, 2, 3])
    let f : FileHandle := ⟨[[0x61]], 5, { write := true }, 0⟩
    ((v.write f [9]).1 = .ok 1 ∧ (v.write f [9]).2.1 = { f with pos := 6 } ∧
      (v.write f [9]).2.2.tree.get? [[0x61]] = some (.file [1, 2, 3, 0, 0, 9]) ∧
      (v.write f [9]).2.2.tree.get? [] = some .dir) ∧
    (v.perform (.read f 4)).failure = some .badHandle ∧
    (v.perform (.read f 4)).handle = .file f ∧ v.Same (v.perform (.read f 4)).volume := by
  intro v f
  have hv := file_system v
  have hread : (v.perform (.read f 4)).failure = some .badHandle := rfl
  have hserves : v.handleFailure 0 = (none, v) := rfl
  have hget : v.tree.get? [[0x61]] = some (.file [1, 2, 3]) := rfl
  have hroom : ¬ v.free < v.blocksFor 6 - v.blocksFor 3 := by decide
  have hok : (v.write f [9]).1 = .ok 1 := by
    simp [write, f, hserves, hget, hroom]
  obtain ⟨old, new, s, hold, hnew, hother, -, hs, -, hbytes, hpos⟩ :=
    hv.1 f [9] 1 _ _ (Prod.ext hok rfl)
  obtain rfl : [1, 2, 3] = old := Node.file.inj (Option.some.inj hold)
  obtain rfl : s = 5 := hs
  have hcontents : new = [1, 2, 3, 0, 0, 9] := by
    apply List.ext_getElem?
    intro i
    rw [hbytes]
    match i with
    | 0 | 1 | 2 | 3 | 4 | 5 => rfl
    | i + 6 => simp
  have hroot := hother [] (by decide)
  exact ⟨⟨hok, hpos (by decide), hcontents ▸ hnew, hroot⟩, hread, hv.2.2.2.2.2.2 _ _ hread⟩

end Volume

end PanelLink
