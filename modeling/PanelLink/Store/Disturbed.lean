import PanelLink.Store.FileStore

/-! A file store whose calls can fail, or read and write less than they were asked to. -/
namespace PanelLink

/-- The calls of a file store that can fail. -/
inductive StoreCall where
  | openFile
  | closeFile
  | read
  | write
  | seek
  | stat
  | openDir
  | readDir
  | closeDir
  | remove
  | mkdir
  | format
  | mount
  | usedBlocks
  deriving DecidableEq

/-- What disturbs a store: it meets every call before the store does. -/
class Disturbance (ι : Type) where
  /-- The failure that takes the place of the call, if any. -/
  meet : ι → StoreCall → Option StorageError × ι
  /-- The most bytes that a read may ask the store for. -/
  readLimit : ι → Option Nat
  /-- The most bytes that a write may hand to the store. -/
  writeLimit : ι → Option Nat

structure Disturbed (ι σ : Type) where
  disturbance : ι
  store : σ
  deriving DecidableEq

namespace Disturbed

variable {ι σ φ δ α : Type} [Disturbance ι] [FileStore σ φ δ]

def limited (limit : Option Nat) (n : Nat) : Nat :=
  match limit with
  | some l => min l n
  | none => n

/-- Let the store answer a call, unless the disturbance does. -/
def call (d : Disturbed ι σ) (c : StoreCall)
    (answer : σ → Except StorageError α × σ) : Except StorageError α × Disturbed ι σ :=
  match Disturbance.meet d.disturbance c with
  | (some e, i) => (.error e, { d with disturbance := i })
  | (none, i) =>
    let (r, s) := answer d.store
    (r, ⟨i, s⟩)

/-- Let the store answer a call through a handle, unless the disturbance does. -/
def callOn {η : Type} (d : Disturbed ι σ) (c : StoreCall) (h : η)
    (answer : ι → σ → η → Except StorageError α × η × σ) :
    Except StorageError α × η × Disturbed ι σ :=
  match Disturbance.meet d.disturbance c with
  | (some e, i) => (.error e, h, { d with disturbance := i })
  | (none, i) =>
    let (r, h, s) := answer i d.store h
    (r, h, ⟨i, s⟩)

instance : FileStore (Disturbed ι σ) φ δ where
  openFile d path flags := d.call .openFile (FileStore.openFile · path flags)
  closeFile d f := d.call .closeFile (FileStore.closeFile · f)
  read d f n := d.callOn .read f fun i s f =>
    FileStore.read s f (limited (Disturbance.readLimit i) n)
  write d f data := d.callOn .write f fun i s f =>
    FileStore.write s f (data.take (limited (Disturbance.writeLimit i) data.length))
  seek d f whence := d.callOn .seek f fun _ s f => FileStore.seek s f whence
  stat d path := d.call .stat (FileStore.stat · path)
  openDir d path := d.call .openDir (FileStore.openDir · path)
  readDir d h := d.callOn .readDir h fun _ s h => FileStore.readDir s h
  closeDir d h := d.call .closeDir (FileStore.closeDir · h)
  remove d path := d.call .remove (FileStore.remove · path)
  mkdir d path := d.call .mkdir (FileStore.mkdir · path)
  format d := d.call .format FileStore.format
  mount d := d.call .mount FileStore.mount
  usedBlocks d := d.call .usedBlocks FileStore.usedBlocks
  blockCount d := FileStore.blockCount d.store
  blockSize d := FileStore.blockSize d.store
  bytesLeft d f := FileStore.bytesLeft d.store f
  entriesLeft d h := FileStore.entriesLeft d.store h

end Disturbed

structure ArmedFault where
  call : StoreCall
  /-- How many calls of that kind still go through. -/
  after : Nat
  error : StorageError
  deriving DecidableEq

/-- A disturbance with at most one armed fault and fixed limits. -/
structure Mishap where
  fault : Option ArmedFault := none
  readLimit : Option Nat := none
  writeLimit : Option Nat := none
  deriving DecidableEq

namespace Mishap

/-- The armed fault strikes when its count has run down, and is then gone. -/
def meet (m : Mishap) (c : StoreCall) : Option StorageError × Mishap :=
  match m.fault with
  | none => (none, m)
  | some f =>
    if f.call ≠ c then (none, m)
    else
      match f.after with
      | 0 => (some f.error, { m with fault := none })
      | n + 1 => (none, { m with fault := some { f with after := n } })

instance : Disturbance Mishap where
  meet := meet
  readLimit := readLimit
  writeLimit := writeLimit

end Mishap

end PanelLink
