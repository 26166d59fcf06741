import PanelLink.Store.Lawful
import PanelLink.Store.Recorded

/-!
Stores with a volume behind them. Each of their calls is refused and leaves the volume alone, or is
a call of the volume; reads and writes may be for less than was asked.
-/
namespace PanelLink

/-- A call is refused and changes nothing, or has the answer of the volume. -/
def Passes {α : Type} (v : Volume) (answer : Except StorageError α × Volume)
    (r : Except StorageError α) (v' : Volume) : Prop :=
  (r, v') = answer ∨ (∃ e, r = .error e) ∧ v' = v

/-- The same for a call through a handle, which a refusal leaves as it is. -/
def PassesOn {α η : Type} (v : Volume) (h : η) (answer : Except StorageError α × η × Volume)
    (r : Except StorageError α) (h' : η) (v' : Volume) : Prop :=
  (r, h', v') = answer ∨ (∃ e, r = .error e) ∧ h' = h ∧ v' = v

section

variable {α η : Type} {v v' : Volume} {r : Except StorageError α} {R : Volume → Volume → Prop}
  [Std.Refl R]

/-- A call that is refused is in every relation that a volume has to itself. -/
theorem Passes.keeps {answer : Except StorageError α × Volume} (h : Passes v answer r v')
    (ha : R v answer.2) : R v v' := by
  obtain rfl | ⟨-, rfl⟩ := h
  · exact ha
  · exact Std.Refl.refl v'

theorem PassesOn.keeps {h h' : η} {answer : Except StorageError α × η × Volume}
    (hp : PassesOn v h answer r h' v') (ha : R v answer.2.2) : R v v' := by
  obtain rfl | ⟨-, -, rfl⟩ := hp
  · exact ha
  · exact Std.Refl.refl v'

omit [Std.Refl R] in
theorem PassesOn.handle_eq {γ : Type} {g : η → γ} {h h' : η}
    {answer : Except StorageError α × η × Volume} (hp : PassesOn v h answer r h' v')
    (ha : g answer.2.1 = g h) : g h' = g h := by
  obtain rfl | ⟨-, rfl, -⟩ := hp
  · exact ha
  · rfl

end

/-- A store with a volume behind it. It refuses a call, or the volume answers it; of a read or a
write it may pass on less. -/
class Backed (σ : Type) (φ δ : outParam Type) [FileStore σ φ δ] where
  volume : σ → Volume
  file : φ → FileHandle
  dir : δ → DirHandle
  openFile (s : σ) (path : Bytes) (flags : OpenFlags) :
    Passes (volume s) ((volume s).openFile path flags)
      ((FileStore.openFile s path flags).1.map file) (volume (FileStore.openFile s path flags).2)
  closeFile (s : σ) (f : φ) :
    Passes (volume s) ((volume s).closeFile (file f)) (FileStore.closeFile s f).1
      (volume (FileStore.closeFile s f).2)
  read (s : σ) (f : φ) (n : Nat) : ∃ m ≤ n,
    PassesOn (volume s) (file f) ((volume s).read (file f) m) (FileStore.read s f n).1
      (file (FileStore.read s f n).2.1) (volume (FileStore.read s f n).2.2)
  write (s : σ) (f : φ) (data : Bytes) : ∃ m ≤ data.length,
    PassesOn (volume s) (file f) ((volume s).write (file f) (data.take m))
      (FileStore.write s f data).1 (file (FileStore.write s f data).2.1)
      (volume (FileStore.write s f data).2.2)
  seek (s : σ) (f : φ) (whence : SeekFrom) :
    PassesOn (volume s) (file f) ((volume s).seek (file f) whence) (FileStore.seek s f whence).1
      (file (FileStore.seek s f whence).2.1) (volume (FileStore.seek s f whence).2.2)
  stat (s : σ) (path : Bytes) :
    Passes (volume s) ((volume s).stat path) (FileStore.stat s path).1
      (volume (FileStore.stat s path).2)
  openDir (s : σ) (path : Bytes) :
    Passes (volume s) ((volume s).openDir path) ((FileStore.openDir s path).1.map dir)
      (volume (FileStore.openDir s path).2)
  readDir (s : σ) (h : δ) :
    PassesOn (volume s) (dir h) ((volume s).readDir (dir h)) (FileStore.readDir s h).1
      (dir (FileStore.readDir s h).2.1) (volume (FileStore.readDir s h).2.2)
  closeDir (s : σ) (h : δ) :
    Passes (volume s) ((volume s).closeDir (dir h)) (FileStore.closeDir s h).1
      (volume (FileStore.closeDir s h).2)
  remove (s : σ) (path : Bytes) :
    Passes (volume s) ((volume s).remove path) (FileStore.remove s path).1
      (volume (FileStore.remove s path).2)
  mkdir (s : σ) (path : Bytes) :
    Passes (volume s) ((volume s).mkdir path) (FileStore.mkdir s path).1
      (volume (FileStore.mkdir s path).2)
  format (s : σ) :
    Passes (volume s) (volume s).format (FileStore.format s).1 (volume (FileStore.format s).2)
  mount (s : σ) :
    Passes (volume s) (volume s).mount (FileStore.mount s).1 (volume (FileStore.mount s).2)
  usedBlocks (s : σ) :
    Passes (volume s) (volume s).usedBlocks (FileStore.usedBlocks s).1
      (volume (FileStore.usedBlocks s).2)

private theorem map_id {α : Type} (r : Except StorageError α) : r.map id = r := by
  cases r <;> rfl

instance : Backed Volume FileHandle DirHandle where
  volume := id
  file := id
  dir := id
  openFile _ _ _ := .inl (by rw [map_id]; rfl)
  closeFile _ _ := .inl rfl
  read _ _ n := ⟨n, Nat.le_refl n, .inl rfl⟩
  write _ _ data := ⟨data.length, Nat.le_refl _, .inl (by rw [List.take_length]; rfl)⟩
  seek _ _ _ := .inl rfl
  stat _ _ := .inl rfl
  openDir _ _ := .inl (by rw [map_id]; rfl)
  readDir _ _ := .inl rfl
  closeDir _ _ := .inl rfl
  remove _ _ := .inl rfl
  mkdir _ _ := .inl rfl
  format _ := .inl rfl
  mount _ := .inl rfl
  usedBlocks _ := .inl rfl

variable {σ φ δ ι α η : Type} [FileStore σ φ δ] [Backed σ φ δ]

namespace Disturbed

variable [Disturbance ι]

theorem call_view {β : Type} (d : Disturbed ι σ) (c : StoreCall)
    (answer : σ → Except StorageError α × σ) (view : α → β)
    {out : Except StorageError β × Volume}
    (h : Passes (Backed.volume d.store) out ((answer d.store).1.map view)
      (Backed.volume (answer d.store).2)) :
    Passes (Backed.volume d.store) out ((d.call c answer).1.map view)
      (Backed.volume (d.call c answer).2.store) := by
  unfold call
  rcases Disturbance.meet d.disturbance c with ⟨_ | e, i⟩
  · exact h
  · exact .inr ⟨⟨e, rfl⟩, rfl⟩

theorem call_passes (d : Disturbed ι σ) (c : StoreCall)
    (answer : σ → Except StorageError α × σ) {out : Except StorageError α × Volume}
    (h : Passes (Backed.volume d.store) out (answer d.store).1 (Backed.volume (answer d.store).2)) :
    Passes (Backed.volume d.store) out (d.call c answer).1
      (Backed.volume (d.call c answer).2.store) := by
  unfold call
  rcases Disturbance.meet d.disturbance c with ⟨_ | e, i⟩
  · exact h
  · exact .inr ⟨⟨e, rfl⟩, rfl⟩

private theorem callOn_some {η' κ : Type} (d : Disturbed ι σ) (c : StoreCall) (h : η)
    (view : η → η')
    (answer : ι → σ → η → Except StorageError α × η × σ)
    {out : κ → Except StorageError α × η' × Volume} {may : κ → Prop} (some : ∃ m, may m)
    (hpass : ∀ i, ∃ m, may m ∧ PassesOn (Backed.volume d.store) (view h) (out m)
      (answer i d.store h).1 (view (answer i d.store h).2.1)
      (Backed.volume (answer i d.store h).2.2)) :
    ∃ m, may m ∧ PassesOn (Backed.volume d.store) (view h) (out m) (d.callOn c h answer).1
      (view (d.callOn c h answer).2.1) (Backed.volume (d.callOn c h answer).2.2.store) := by
  unfold callOn
  rcases Disturbance.meet d.disturbance c with ⟨_ | e, i⟩
  · exact hpass i
  · obtain ⟨m, hm⟩ := some
    exact ⟨m, hm, .inr ⟨⟨e, rfl⟩, rfl, rfl⟩⟩

private theorem callOn_passes {η' : Type} (d : Disturbed ι σ) (c : StoreCall) (h : η)
    (view : η → η')
    (answer : ι → σ → η → Except StorageError α × η × σ)
    {out : Except StorageError α × η' × Volume}
    (hpass : ∀ i, PassesOn (Backed.volume d.store) (view h) out (answer i d.store h).1
      (view (answer i d.store h).2.1) (Backed.volume (answer i d.store h).2.2)) :
    PassesOn (Backed.volume d.store) (view h) out (d.callOn c h answer).1
      (view (d.callOn c h answer).2.1) (Backed.volume (d.callOn c h answer).2.2.store) := by
  unfold callOn
  rcases Disturbance.meet d.disturbance c with ⟨_ | e, i⟩
  · exact hpass i
  · exact .inr ⟨⟨e, rfl⟩, rfl, rfl⟩

instance : Backed (Disturbed ι σ) φ δ where
  volume d := Backed.volume d.store
  file := Backed.file σ
  dir := Backed.dir σ
  openFile d path flags := d.call_view _ _ _ (Backed.openFile d.store path flags)
  closeFile d f := d.call_passes _ _ (Backed.closeFile d.store f)
  read d f n := d.callOn_some _ f _ _ ⟨0, Nat.zero_le n⟩ fun i => by
    obtain ⟨m, hm, h⟩ := Backed.read d.store f (limited (Disturbance.readLimit i) n)
    exact ⟨m, Nat.le_trans hm (limited_le _ _), h⟩
  write d f data := d.callOn_some _ f _ _ ⟨0, Nat.zero_le data.length⟩ fun i => by
    obtain ⟨m, hm, h⟩ :=
      Backed.write d.store f (data.take (limited (Disturbance.writeLimit i) data.length))
    rw [List.length_take] at hm
    rw [List.take_take] at h
    exact ⟨_, Nat.le_trans (Nat.min_le_left _ _) (Nat.le_trans hm (Nat.min_le_right _ _)), h⟩
  seek d f whence :=
    d.callOn_passes _ f _ (fun _ s f => FileStore.seek s f whence) fun _ =>
      Backed.seek d.store f whence
  stat d path := d.call_passes _ _ (Backed.stat d.store path)
  openDir d path := d.call_view _ _ _ (Backed.openDir d.store path)
  readDir d h :=
    d.callOn_passes _ h _ (fun _ s h => FileStore.readDir s h) fun _ => Backed.readDir d.store h
  closeDir d h := d.call_passes _ _ (Backed.closeDir d.store h)
  remove d path := d.call_passes _ _ (Backed.remove d.store path)
  mkdir d path := d.call_passes _ _ (Backed.mkdir d.store path)
  format d := d.call_passes _ _ (Backed.format d.store)
  mount d := d.call_passes _ _ (Backed.mount d.store)
  usedBlocks d := d.call_passes _ _ (Backed.usedBlocks d.store)

end Disturbed

namespace Recorded

omit [FileStore σ φ δ] [Backed σ φ δ] in
theorem issue_view {η' : Type} (r : Recorded σ) (c : StoreCall)
    (answer : σ → Except StorageError η × σ) (view : η → η') :
    (r.issue c answer).1.map (fun t => view t.handle) = (answer r.store).1.map view ∧
      (r.issue c answer).2.store = (answer r.store).2 := by
  unfold issue
  split
  · rename_i h
    exact ⟨by rw [h]; rfl, by rw [h]; rfl⟩
  · rename_i h
    exact ⟨by rw [h]; rfl, by rw [h]; rfl⟩

instance : Backed (Recorded σ) (Ticket φ) (Ticket δ) where
  volume r := Backed.volume r.store
  file t := Backed.file σ t.handle
  dir t := Backed.dir σ t.handle
  openFile r path flags := by
    obtain ⟨hview, hstore⟩ :=
      r.issue_view .openFile (FileStore.openFile · path flags) (Backed.file σ)
    exact hview.symm ▸ hstore.symm ▸ Backed.openFile r.store path flags
  closeFile r t := Backed.closeFile r.store t.handle
  read r t n := Backed.read r.store t.handle n
  write r t data := Backed.write r.store t.handle data
  seek r t whence := Backed.seek r.store t.handle whence
  stat r path := Backed.stat r.store path
  openDir r path := by
    obtain ⟨hview, hstore⟩ := r.issue_view .openDir (FileStore.openDir · path) (Backed.dir σ)
    exact hview.symm ▸ hstore.symm ▸ Backed.openDir r.store path
  readDir r t := Backed.readDir r.store t.handle
  closeDir r t := Backed.closeDir r.store t.handle
  remove r path := Backed.remove r.store path
  mkdir r path := Backed.mkdir r.store path
  format r := Backed.format r.store
  mount r := Backed.mount r.store
  usedBlocks r := Backed.usedBlocks r.store

end Recorded

end PanelLink
