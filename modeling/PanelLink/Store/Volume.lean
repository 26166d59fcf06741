import PanelLink.Path
import PanelLink.Store.FileStore
import PanelLink.Store.Tree

/-!
A file store in memory: a tree, blocks that are counted but not laid out, and handles that a
format makes stale. Lengths and positions are 32-bit numbers.
-/
namespace PanelLink

structure FileHandle where
  key : Key
  pos : Nat
  flags : OpenFlags
  generation : UInt32
  deriving DecidableEq

/-- The path of an open file from the root, without a slash in front. -/
def FileHandle.path (f : FileHandle) : Bytes :=
  List.intercalate [Path.slash] f.key

/-- An open directory of a volume: the entries there were when it was opened, as far as unread. -/
structure DirHandle where
  entries : List DirEntry
  generation : UInt32
  deriving DecidableEq

structure Volume where
  tree : Tree
  formatted : Bool
  mounted : Bool
  /-- How often the volume was formatted. -/
  generation : UInt32
  blockSize : Nat
  blockCount : Nat
  /-- The key of every read that reached a handle of this generation. -/
  reads : List Key
  staleAccesses : Nat
  readFault : Option Key
  deriving DecidableEq

namespace Volume

def dirBlocks : Nat := 2

/-- A volume that was never formatted; a block has at least one byte. -/
def blank (blockSize blockCount : Nat) : Volume where
  tree := []
  formatted := false
  mounted := false
  generation := 0
  blockSize := max blockSize 1
  blockCount := blockCount
  reads := []
  staleAccesses := 0
  readFault := none

/-- An empty volume that is ready for use, though no format ran on it. -/
def fresh (blockSize blockCount : Nat) : Volume :=
  { blank blockSize blockCount with tree := .root, formatted := true, mounted := true }

/-- A component has to fit the name of an entry. -/
def nameFailure (_ : List Bytes) (name : Bytes) : Option StorageError :=
  if name.length ≤ maxName then none else some .nameTooLong

def key (path : Bytes) : Except StorageError Key :=
  Path.reduce nameFailure [] (Path.split path)

variable (v : Volume)

/-- The blocks of a file by its length as a 32-bit number. -/
def blocksFor (length : Nat) : Nat :=
  (length % Bytes.wordLimit + (v.blockSize - 1)) / v.blockSize

def blocks : Node → Nat
  | .stored body => v.blocksFor body.length
  | .dir => dirBlocks

def used : Nat :=
  v.tree.nodes.foldr (fun n total => v.blocks n + total) 0

def free : Nat :=
  v.blockCount - v.used

/-- The failure of a call that needs a mounted volume. -/
def mountFailure : Option StorageError :=
  if v.mounted then none else some .notMounted

/-- The failure of a call through a handle, and the volume that has counted a stale one. -/
def handleFailure (generation : UInt32) : Option StorageError × Volume :=
  if !v.mounted then (some .notMounted, v)
  else if generation ≠ v.generation then
    (some .badHandle, { v with staleAccesses := v.staleAccesses + 1 })
  else (none, v)

/-- A new entry needs a directory to stand in. -/
def parentFailure (key : Key) : Option StorageError :=
  match v.tree.get? key.dropLast with
  | some .dir => none
  | some (.stored _) => some .notDir
  | none => some .notFound

def put (key : Key) (node : Node) : Volume :=
  { v with tree := v.tree.insert key node }

def handle (key : Key) (flags : OpenFlags) : FileHandle :=
  ⟨key, 0, flags, v.generation⟩

/-- Open a file, which is made or emptied if the flags say so. A new file needs a free block, though
it takes none while it is empty. -/
def openFile (path : Bytes) (flags : OpenFlags) : Except StorageError FileHandle × Volume :=
  match v.mountFailure with
  | some e => (.error e, v)
  | none =>
    if !flags.read && !flags.write then (.error .invalid, v)
    else
      match key path with
      | .error e => (.error e, v)
      | .ok k =>
        match v.tree.get? k with
        | some .dir => (.error .isDir, v)
        | some (.stored _) =>
          if flags.create && flags.exclusive then (.error .exists, v)
          else if flags.truncate && flags.write then (.ok (v.handle k flags), v.put k (.file []))
          else (.ok (v.handle k flags), v)
        | none =>
          if !flags.create || !flags.write then (.error .notFound, v)
          else
            match v.parentFailure k with
            | some e => (.error e, v)
            | none =>
              if v.free = 0 then (.error .noSpace, v)
              else (.ok (v.handle k flags), v.put k (.file []))

def closeFile (f : FileHandle) : Except StorageError Unit × Volume :=
  match v.handleFailure f.generation with
  | (some e, v) => (.error e, v)
  | (none, v) => (.ok (), v)

/-- The bytes of a file from a position on, at most so many. -/
def slice (contents : Bytes) (pos n : Nat) : Bytes :=
  (contents.drop pos).take n

/-- Read from the position on; past the end there is nothing to read. The position moves on as a
32-bit number. The read counts even if it fails, as long as the handle is good. -/
def read (f : FileHandle) (n : Nat) : Except StorageError Bytes × FileHandle × Volume :=
  match v.handleFailure f.generation with
  | (some e, v) => (.error e, f, v)
  | (none, v) =>
    let v := { v with reads := f.key :: v.reads }
    if !f.flags.read then (.error .badHandle, f, v)
    else if v.readFault = some f.key then (.error .io, f, v)
    else
      match v.tree.get? f.key with
      | some .dir => (.error .isDir, f, v)
      | none => (.error .notFound, f, v)
      | some (.stored body) =>
        let bytes := slice body.bytes f.pos n
        (.ok bytes, { f with pos := (f.pos + bytes.length) % Bytes.wordLimit }, v)

/-- The contents after `data` was written at `start`; a gap before it holds zeros. -/
def written (contents : Bytes) (start : Nat) (data : Bytes) : Bytes :=
  Bytes.overlay start data (contents.padTo start)

/-- A write makes a file longer only as far as it reaches, so its room is known beforehand. -/
theorem length_written (contents : Bytes) (start : Nat) (data : Bytes) :
    (written contents start data).length = max contents.length (start + data.length) := by
  simp only [written, Bytes.overlay, List.length_append, List.length_take, List.length_drop,
    Bytes.length_padTo]
  omega

/-- The body of a file after a write, which lays nothing out yet. -/
def writtenBody (contents : Bytes) (start : Nat) (data : Bytes) : Body where
  length := max contents.length (start + data.length)
  laid := Thunk.mk fun _ => written contents start data
  length_laid := length_written contents start data

theorem writtenBody_eq (contents : Bytes) (start : Nat) (data : Bytes) :
    writtenBody contents start data = .ofBytes (written contents start data) :=
  Body.bytes_inj rfl

/-- Write at the position, or at the end when appending. All is stored or nothing: the file grows
only if the blocks for it are free. -/
def write (f : FileHandle) (data : Bytes) : Except StorageError Nat × FileHandle × Volume :=
  match v.handleFailure f.generation with
  | (some e, v) => (.error e, f, v)
  | (none, v) =>
    if !f.flags.write then (.error .badHandle, f, v)
    else
      match v.tree.get? f.key with
      | some .dir => (.error .isDir, f, v)
      | none => (.error .notFound, f, v)
      | some (.stored body) =>
        let start := if f.flags.append then body.length else f.pos
        let length := max body.length (start + data.length)
        if v.free < v.blocksFor length - v.blocksFor body.length then (.error .noSpace, f, v)
        else
          (.ok data.length, { f with pos := (start + data.length) % Bytes.wordLimit },
            v.put f.key (.stored (writtenBody body.bytes start data)))

/-- The place that a seek means in a file of some length. -/
def target (f : FileHandle) (length : Nat) : SeekFrom → Int
  | .start offset => offset
  | .current delta => f.pos + delta
  | .finish delta => length + delta

/-- Move the position, past the end too, but never before the start or out of 32 bits. -/
def seek (f : FileHandle) (whence : SeekFrom) : Except StorageError Nat × FileHandle × Volume :=
  match v.handleFailure f.generation with
  | (some e, v) => (.error e, f, v)
  | (none, v) =>
    match v.tree.get? f.key with
    | some (.stored body) =>
      let place := target f body.length whence
      if place < 0 || (Bytes.wordLimit : Int) ≤ place then (.error .invalid, f, v)
      else (.ok place.toNat, { f with pos := place.toNat }, v)
    | _ => (.error .notFound, f, v)

def stat (path : Bytes) : Except StorageError Metadata × Volume :=
  match v.mountFailure with
  | some e => (.error e, v)
  | none =>
    match key path with
    | .error e => (.error e, v)
    | .ok k =>
      match v.tree.get? k with
      | none => (.error .notFound, v)
      | some n => (.ok ⟨n.kind, n.size⟩, v)

def dotEntries : List DirEntry :=
  [⟨dot, .dir, 0⟩, ⟨dotDot, .dir, 0⟩]

/-- Open a directory; later changes to it are not seen through the handle. -/
def openDir (path : Bytes) : Except StorageError DirHandle × Volume :=
  match v.mountFailure with
  | some e => (.error e, v)
  | none =>
    match key path with
    | .error e => (.error e, v)
    | .ok k =>
      match v.tree.get? k with
      | none => (.error .notFound, v)
      | some (.stored _) => (.error .notDir, v)
      | some .dir => (.ok ⟨dotEntries ++ v.tree.children k, v.generation⟩, v)

def readDir (d : DirHandle) : Except StorageError (Option DirEntry) × DirHandle × Volume :=
  match v.handleFailure d.generation with
  | (some e, v) => (.error e, d, v)
  | (none, v) =>
    match d.entries with
    | [] => (.ok none, d, v)
    | e :: es => (.ok (some e), { d with entries := es }, v)

def closeDir (d : DirHandle) : Except StorageError Unit × Volume :=
  match v.handleFailure d.generation with
  | (some e, v) => (.error e, v)
  | (none, v) => (.ok (), v)

/-- Remove a file or an empty directory, but never the root. Handles to it are not made stale. -/
def remove (path : Bytes) : Except StorageError Unit × Volume :=
  match v.mountFailure with
  | some e => (.error e, v)
  | none =>
    match key path with
    | .error e => (.error e, v)
    | .ok k =>
      if k = [] then (.error .invalid, v)
      else
        match v.tree.get? k with
        | none => (.error .notFound, v)
        | some n =>
          if n = .dir ∧ v.tree.children k ≠ [] then (.error .notEmpty, v)
          else (.ok (), { v with tree := v.tree.erase k })

def mkdir (path : Bytes) : Except StorageError Unit × Volume :=
  match v.mountFailure with
  | some e => (.error e, v)
  | none =>
    match key path with
    | .error e => (.error e, v)
    | .ok k =>
      if (v.tree.get? k).isSome then (.error .exists, v)
      else
        match v.parentFailure k with
        | some e => (.error e, v)
        | none =>
          if v.free < dirBlocks then (.error .noSpace, v) else (.ok (), v.put k .dir)

/-- Erase all and leave an empty root, unmounted. Every handle opened so far is stale from now
on. -/
def format : Except StorageError Unit × Volume :=
  if v.blockCount < dirBlocks then (.error .noSpace, v)
  else
    (.ok (), { v with
      tree := .root
      formatted := true
      mounted := false
      generation := v.generation + 1 })

/-- Make a volume usable that was formatted before. -/
def mount : Except StorageError Unit × Volume :=
  if v.formatted then (.ok (), { v with mounted := true }) else (.error .corrupt, v)

def usedBlocks : Except StorageError Nat × Volume :=
  match v.mountFailure with
  | some e => (.error e, v)
  | none => (.ok v.used, v)

/-- What a file holds, whatever handles are open. -/
def contents? (path : Bytes) : Option Bytes :=
  match key path with
  | .error _ => none
  | .ok k =>
    match v.tree.get? k with
    | some (.stored body) => some body.bytes
    | _ => none

def readsOf (path : Bytes) : Nat :=
  match key path with
  | .error _ => 0
  | .ok k => v.reads.count k

/-- Let every read of a file fail, or of none. -/
def setReadFault (path : Option Bytes) : Volume :=
  { v with readFault := path.bind fun p => (key p).toOption }

def bytesLeft (f : FileHandle) : Nat :=
  match v.tree.get? f.key with
  | some (.stored body) => body.length - f.pos
  | _ => 0

instance : FileStore Volume FileHandle DirHandle where
  openFile := openFile
  closeFile := closeFile
  read := read
  write := write
  seek := seek
  stat := stat
  openDir := openDir
  readDir := readDir
  closeDir := closeDir
  remove := remove
  mkdir := mkdir
  format := format
  mount := mount
  usedBlocks := usedBlocks
  blockCount := blockCount
  blockSize := blockSize
  bytesLeft := bytesLeft
  entriesLeft _ d := d.entries.length

end Volume

end PanelLink
