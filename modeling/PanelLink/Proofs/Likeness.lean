import PanelLink.Proofs.Custody
import PanelLink.Store.Disturbed

/-!
Stores that nobody can tell apart. Two stores correspond if every call gives the same answer on both
and leaves them as they were to each other; what the loader does to one of them alone does not
matter.
-/
namespace PanelLink

inductive Agree {ε α β : Type} (R : α → β → Prop) : Except ε α → Except ε β → Prop
  | error (e : ε) : Agree R (.error e) (.error e)
  | ok {a : α} {b : β} : R a b → Agree R (.ok a) (.ok b)

/-- A correspondence of stores and of handles. -/
structure Likeness (σ φ δ : Type) where
  store : σ → σ → Prop
  file : φ → φ → Prop
  dir : δ → δ → Prop

namespace Likeness

variable {σ φ δ η α β : Type} (L : Likeness σ φ δ)

def Answers (R : α → β → Prop) (x : α × σ) (y : β × σ) : Prop :=
  R x.1 y.1 ∧ L.store x.2 y.2

def Replies (H : η → η → Prop) (x y : α × η × σ) : Prop :=
  x.1 = y.1 ∧ H x.2.1 y.2.1 ∧ L.store x.2.2 y.2.2

variable [FileStore σ φ δ]

/-- Corresponding stores answer every call alike. -/
structure Lawful : Prop where
  openFile {s t} (path : Bytes) (flags : OpenFlags) : L.store s t →
    L.Answers (Agree L.file) (FileStore.openFile s path flags) (FileStore.openFile t path flags)
  closeFile {s t f g} : L.store s t → L.file f g →
    L.Answers Eq (FileStore.closeFile s f) (FileStore.closeFile t g)
  read {s t f g} (n : Nat) : L.store s t → L.file f g →
    L.Replies L.file (FileStore.read s f n) (FileStore.read t g n)
  write {s t f g} (data : Bytes) : L.store s t → L.file f g →
    L.Replies L.file (FileStore.write s f data) (FileStore.write t g data)
  seek {s t f g} (whence : SeekFrom) : L.store s t → L.file f g →
    L.Replies L.file (FileStore.seek s f whence) (FileStore.seek t g whence)
  stat {s t} (path : Bytes) : L.store s t →
    L.Answers Eq (FileStore.stat s path) (FileStore.stat t path)
  openDir {s t} (path : Bytes) : L.store s t →
    L.Answers (Agree L.dir) (FileStore.openDir s path) (FileStore.openDir t path)
  readDir {s t h k} : L.store s t → L.dir h k →
    L.Replies L.dir (FileStore.readDir s h) (FileStore.readDir t k)
  closeDir {s t h k} : L.store s t → L.dir h k →
    L.Answers Eq (FileStore.closeDir s h) (FileStore.closeDir t k)
  remove {s t} (path : Bytes) : L.store s t →
    L.Answers Eq (FileStore.remove s path) (FileStore.remove t path)
  mkdir {s t} (path : Bytes) : L.store s t →
    L.Answers Eq (FileStore.mkdir s path) (FileStore.mkdir t path)
  format {s t} : L.store s t → L.Answers Eq (FileStore.format s) (FileStore.format t)
  mount {s t} : L.store s t → L.Answers Eq (FileStore.mount s) (FileStore.mount t)
  usedBlocks {s t} : L.store s t → L.Answers Eq (FileStore.usedBlocks s) (FileStore.usedBlocks t)
  blockCount {s t} : L.store s t → FileStore.blockCount s = FileStore.blockCount t
  blockSize {s t} : L.store s t → FileStore.blockSize s = FileStore.blockSize t
  bytesLeft {s t f g} : L.store s t → L.file f g →
    FileStore.bytesLeft s f = FileStore.bytesLeft t g
  entriesLeft {s t h k} : L.store s t → L.dir h k →
    FileStore.entriesLeft s h = FileStore.entriesLeft t k

def left (t : σ) : Custody σ φ δ where
  store s := L.store s t
  file _ _ := True
  dir _ _ := True

def right (s : σ) : Custody σ φ δ where
  store t := L.store s t
  file _ _ := True
  dir _ _ := True

/-- The calls of the loader, and the close of its file, change nothing that matters. -/
structure Tolerant : Prop where
  left (t : σ) : (L.left t).Reading
  right (s : σ) : (L.right s).Reading
  closeLeft {s t} (f : φ) : L.store s t → L.store (FileStore.closeFile s f).2 t
  closeRight {s t} (f : φ) : L.store s t → L.store s (FileStore.closeFile t f).2

namespace Lawful

variable {L} {s t : σ} {f g : φ}

theorem gather (hL : L.Lawful) (tries want : Nat) (hs : L.store s t) (hf : L.file f g) :
    L.Replies L.file (FileStore.gather tries want s f) (FileStore.gather tries want t g) := by
  induction tries generalizing want s t f g with
  | zero => exact ⟨rfl, hf, hs⟩
  | succ tries ih =>
    cases want with
    | zero => exact ⟨rfl, hf, hs⟩
    | succ want =>
      have hread := hL.read (want + 1) hs hf
      unfold FileStore.gather
      rcases hx : FileStore.read s f (want + 1) with ⟨bytes, f', s'⟩
      rcases hy : FileStore.read t g (want + 1) with ⟨bytes', g', t'⟩
      rw [hx, hy] at hread
      obtain ⟨hbytes, hf', hs'⟩ := hread
      obtain rfl : bytes = bytes' := hbytes
      rcases bytes with e | _ | ⟨b, bs⟩
      · exact ⟨rfl, hf', hs'⟩
      · exact ⟨rfl, hf', hs'⟩
      · obtain ⟨hrest, hf'', hs''⟩ := ih (want - bs.length) hs' hf'
        refine ⟨?_, hf'', hs''⟩
        dsimp only
        rw [hrest]

end Lawful

end Likeness

/-! ## Uploads -/

/-- Buffers that are given the same bytes commit the same chunks. -/
theorem ChunkBuffer.accept_alike {τ τ' η : Type} {n : Nat} {commit : τ → Bytes → Except η Unit × τ}
    {commit' : τ' → Bytes → Except η Unit × τ'} {R : τ → τ' → Prop}
    (hR : ∀ t t' data, R t t' → (commit t data).1 = (commit' t' data).1 ∧
      R (commit t data).2 (commit' t' data).2)
    (bytes : Bytes) (c : ChunkBuffer n) {t : τ} {t' : τ'} (h : R t t') :
    (accept commit bytes c t).1 = (accept commit' bytes c t').1 ∧
      (accept commit bytes c t).2.1 = (accept commit' bytes c t').2.1 ∧
      R (accept commit bytes c t).2.2 (accept commit' bytes c t').2.2 := by
  induction bytes generalizing c t t' with
  | nil => exact ⟨rfl, rfl, h⟩
  | cons b bs ih =>
    unfold accept
    dsimp only
    split
    · exact ih _ h
    · have hcommit := hR t t' (c.pending ++ [b]) h
      rcases hx : commit t (c.pending ++ [b]) with ⟨r, u⟩
      rcases hy : commit' t' (c.pending ++ [b]) with ⟨r', u'⟩
      rw [hx, hy] at hcommit
      obtain ⟨hr, hu⟩ := hcommit
      obtain rfl : r = r' := hr
      cases r with
      | error e => exact ⟨rfl, rfl, hu⟩
      | ok => exact ih _ hu

namespace Likeness

variable {σ φ δ : Type} {n : Nat} (L : Likeness σ φ δ)

structure Upload (w u : WriteSession n φ) : Prop where
  file : L.file w.file u.file
  chunk : w.chunk = u.chunk
  lastId : w.lastId = u.lastId

namespace Lawful

variable [FileStore σ φ δ] {L} {s t : σ} {w u : WriteSession n φ}

theorem commit (hL : L.Lawful) (x y : φ × σ) (data : Bytes)
    (h : L.file x.1 y.1 ∧ L.store x.2 y.2) :
    (WriteSession.commit x data).1 = (WriteSession.commit y data).1 ∧
      L.file (WriteSession.commit x data).2.1 (WriteSession.commit y data).2.1 ∧
      L.store (WriteSession.commit x data).2.2 (WriteSession.commit y data).2.2 := by
  have hwrite := hL.write data h.2 h.1
  unfold WriteSession.commit
  rcases hx : FileStore.write x.2 x.1 data with ⟨r, f, s⟩
  rcases hy : FileStore.write y.2 y.1 data with ⟨r', g, t⟩
  rw [hx, hy] at hwrite
  obtain ⟨hr, hf, hs⟩ := hwrite
  obtain rfl : r = r' := hr
  cases r with
  | error e => exact ⟨rfl, hf, hs⟩
  | ok k =>
    dsimp only
    split
    · exact ⟨rfl, hf, hs⟩
    · exact ⟨rfl, hf, hs⟩

theorem writeSession (hL : L.Lawful) (hs : L.store s t) (hw : L.Upload w u) (id : UInt32)
    (data : Bytes) (enforce : Bool) :
    L.Replies L.Upload (w.write s id data enforce) (u.write t id data enforce) := by
  have hsequence : w.sequenceFailure enforce id = u.sequenceFailure enforce id := by
    unfold WriteSession.sequenceFailure
    rw [hw.lastId]
  unfold WriteSession.write
  rw [hsequence]
  cases u.sequenceFailure enforce id with
  | some e => exact ⟨rfl, hw, hs⟩
  | none =>
    let R (x y : φ × σ) : Prop := L.file x.1 y.1 ∧ L.store x.2 y.2
    have hstart : R (w.file, s) (u.file, t) := ⟨hw.file, hs⟩
    obtain ⟨hr, hchunk, hfile, hstore⟩ := ChunkBuffer.accept_alike hL.commit data w.chunk hstart
    rw [hw.chunk] at hr hchunk hfile hstore
    dsimp only
    rw [hw.chunk]
    exact ⟨hr, ⟨hfile, hchunk, rfl⟩, hstore⟩

theorem closeSession (hL : L.Lawful) (hs : L.store s t) (hw : L.Upload w u) :
    L.Answers Eq (w.close s) (u.close t) := by
  have hflush : (w.chunk.flush WriteSession.commit (w.file, s)).1 =
        (u.chunk.flush WriteSession.commit (u.file, t)).1 ∧
      L.file (w.chunk.flush WriteSession.commit (w.file, s)).2.2.1
        (u.chunk.flush WriteSession.commit (u.file, t)).2.2.1 ∧
      L.store (w.chunk.flush WriteSession.commit (w.file, s)).2.2.2
        (u.chunk.flush WriteSession.commit (u.file, t)).2.2.2 := by
    rw [hw.chunk]
    unfold ChunkBuffer.flush
    split
    · exact ⟨rfl, hw.file, hs⟩
    · exact hL.commit (w.file, s) (u.file, t) _ ⟨hw.file, hs⟩
  unfold WriteSession.close
  rcases hx : w.chunk.flush WriteSession.commit (w.file, s) with ⟨flushed, c, f, s'⟩
  rcases hy : u.chunk.flush WriteSession.commit (u.file, t) with ⟨flushed', c', g, t'⟩
  rw [hx, hy] at hflush
  obtain ⟨hflushed, hf, hs'⟩ := hflush
  obtain rfl : flushed = flushed' := hflushed
  have hclose := hL.closeFile hs' hf
  dsimp only
  rcases hx : FileStore.closeFile s' f with ⟨closed, s''⟩
  rcases hy : FileStore.closeFile t' g with ⟨closed', t''⟩
  rw [hx, hy] at hclose
  obtain ⟨hclosed, hs''⟩ := hclose
  obtain rfl : closed = closed' := hclosed
  cases flushed <;> cases closed <;> exact ⟨rfl, hs''⟩

end Lawful

end Likeness

/-! ## Disturbed stores -/

namespace Likeness

variable {σ φ δ ι η α β : Type} [Disturbance ι] {L : Likeness σ φ δ} {d e : Disturbed ι σ}

def disturbed (ι : Type) (L : Likeness σ φ δ) : Likeness (Disturbed ι σ) φ δ where
  store d e := d.disturbance = e.disturbance ∧ L.store d.store e.store
  file := L.file
  dir := L.dir

private theorem call_disturbed {R : Except StorageError α → Except StorageError β → Prop}
    (herror : ∀ x, R (.error x) (.error x)) (h : (L.disturbed ι).store d e) (c : StoreCall)
    {f : σ → Except StorageError α × σ} {g : σ → Except StorageError β × σ}
    (hfg : L.Answers R (f d.store) (g e.store)) :
    (L.disturbed ι).Answers R (d.call c f) (e.call c g) := by
  obtain ⟨hsame, hstore⟩ := h
  unfold Disturbed.call
  rw [← hsame]
  rcases Disturbance.meet d.disturbance c with ⟨_ | x, i⟩
  · exact ⟨hfg.1, rfl, hfg.2⟩
  · exact ⟨herror x, rfl, hstore⟩

private theorem callOn_disturbed {H : η → η → Prop} {x y : η} (h : (L.disturbed ι).store d e)
    (hxy : H x y) (c : StoreCall) {f g : ι → σ → η → Except StorageError α × η × σ}
    (hfg : ∀ i, L.Replies H (f i d.store x) (g i e.store y)) :
    (L.disturbed ι).Replies H (d.callOn c x f) (e.callOn c y g) := by
  obtain ⟨hsame, hstore⟩ := h
  unfold Disturbed.callOn
  rw [← hsame]
  rcases Disturbance.meet d.disturbance c with ⟨_ | failure, i⟩
  · obtain ⟨hreply, hhandle, hafter⟩ := hfg i
    exact ⟨hreply, hhandle, rfl, hafter⟩
  · exact ⟨rfl, hxy, rfl, hstore⟩

/-- No call tells them apart, whatever disturbs it. -/
theorem Lawful.disturbed [FileStore σ φ δ] (hL : L.Lawful) : (L.disturbed ι).Lawful where
  openFile path flags h := call_disturbed .error h _ (hL.openFile path flags h.2)
  closeFile h hf := call_disturbed (fun _ => rfl) h _ (hL.closeFile h.2 hf)
  read _ h hf := callOn_disturbed h hf _ fun _ => hL.read _ h.2 hf
  write _ h hf := callOn_disturbed h hf _ fun _ => hL.write _ h.2 hf
  seek whence h hf := callOn_disturbed h hf _ fun _ => hL.seek whence h.2 hf
  stat path h := call_disturbed (fun _ => rfl) h _ (hL.stat path h.2)
  openDir path h := call_disturbed .error h _ (hL.openDir path h.2)
  readDir h hd := callOn_disturbed h hd _ fun _ => hL.readDir h.2 hd
  closeDir h hd := call_disturbed (fun _ => rfl) h _ (hL.closeDir h.2 hd)
  remove path h := call_disturbed (fun _ => rfl) h _ (hL.remove path h.2)
  mkdir path h := call_disturbed (fun _ => rfl) h _ (hL.mkdir path h.2)
  format h := call_disturbed (fun _ => rfl) h _ (hL.format h.2)
  mount h := call_disturbed (fun _ => rfl) h _ (hL.mount h.2)
  usedBlocks h := call_disturbed (fun _ => rfl) h _ (hL.usedBlocks h.2)
  blockCount h := hL.blockCount h.2
  blockSize h := hL.blockSize h.2
  bytesLeft h hf := hL.bytesLeft h.2 hf
  entriesLeft h hd := hL.entriesLeft h.2 hd

end Likeness

end PanelLink
