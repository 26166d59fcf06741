import PanelLink.Store.Disturbed

/-!
A file store that writes down the calls it gets. Each handle it gives out has a number of its own,
so that the list of calls tells what became of every handle.
-/
namespace PanelLink

structure Ticket (η : Type) where
  number : Nat
  handle : η
  deriving DecidableEq

/-- A call, with the number of the handle that went in or came out. -/
structure CallRecord where
  call : StoreCall
  handle : Option Nat
  deriving DecidableEq

/-- A store with the calls it got, the last one first. -/
structure Recorded (σ : Type) where
  store : σ
  /-- How many handles were given out; the next one has this number. -/
  issued : Nat
  calls : List CallRecord
  deriving DecidableEq

namespace Recorded

variable {σ φ δ η α : Type}

def ofStore (s : σ) : Recorded σ := ⟨s, 0, []⟩

def note (r : Recorded σ) (c : StoreCall) (handle : Option Nat) (s : σ) : Recorded σ :=
  { r with store := s, calls := ⟨c, handle⟩ :: r.calls }

def call (r : Recorded σ) (c : StoreCall) (answer : σ → α × σ) : α × Recorded σ :=
  let (a, s) := answer r.store
  (a, r.note c none s)

def issue (r : Recorded σ) (c : StoreCall) (answer : σ → Except StorageError η × σ) :
    Except StorageError (Ticket η) × Recorded σ :=
  match answer r.store with
  | (.error e, s) => (.error e, r.note c none s)
  | (.ok h, s) => (.ok ⟨r.issued, h⟩, { r.note c (some r.issued) s with issued := r.issued + 1 })

/-- A call through a handle, which keeps its number. -/
def callOn (r : Recorded σ) (c : StoreCall) (t : Ticket η) (answer : σ → η → α × η × σ) :
    α × Ticket η × Recorded σ :=
  let (a, h, s) := answer r.store t.handle
  (a, ⟨t.number, h⟩, r.note c (some t.number) s)

def redeem (r : Recorded σ) (c : StoreCall) (t : Ticket η) (answer : σ → η → α × σ) :
    α × Recorded σ :=
  let (a, s) := answer r.store t.handle
  (a, r.note c (some t.number) s)

variable [FileStore σ φ δ]

instance : FileStore (Recorded σ) (Ticket φ) (Ticket δ) where
  openFile r path flags := r.issue .openFile (FileStore.openFile · path flags)
  closeFile r t := r.redeem .closeFile t FileStore.closeFile
  read r t n := r.callOn .read t (FileStore.read · · n)
  write r t data := r.callOn .write t (FileStore.write · · data)
  seek r t whence := r.callOn .seek t (FileStore.seek · · whence)
  stat r path := r.call .stat (FileStore.stat · path)
  openDir r path := r.issue .openDir (FileStore.openDir · path)
  readDir r t := r.callOn .readDir t FileStore.readDir
  closeDir r t := r.redeem .closeDir t FileStore.closeDir
  remove r path := r.call .remove (FileStore.remove · path)
  mkdir r path := r.call .mkdir (FileStore.mkdir · path)
  format r := r.call .format FileStore.format
  mount r := r.call .mount FileStore.mount
  usedBlocks r := r.call .usedBlocks FileStore.usedBlocks
  blockCount r := FileStore.blockCount r.store
  blockSize r := FileStore.blockSize r.store
  bytesLeft r t := FileStore.bytesLeft r.store t.handle
  entriesLeft r t := FileStore.entriesLeft r.store t.handle

end Recorded

end PanelLink
