import PanelLink.Bytes

/-! What a file store speaks about: entries, ways to open a file, positions, and failures. -/
namespace PanelLink

inductive StorageError where
  | notFound
  | exists
  | noSpace
  | notEmpty
  | isDir
  | notDir
  | nameTooLong
  | badHandle
  | invalid
  | io
  | corrupt
  | notMounted
  deriving DecidableEq

/-- The longest name of one entry, in bytes. -/
def maxName : Nat := 255

inductive EntryKind where
  | file
  | dir
  deriving DecidableEq

/-- What is known of an entry by its path; a directory has size 0. -/
structure Metadata where
  kind : EntryKind
  size : Nat
  deriving DecidableEq

structure DirEntry where
  name : Bytes
  kind : EntryKind
  size : Nat
  deriving DecidableEq

def dot : Bytes := [46]

def dotDot : Bytes := [46, 46]

/-- The directory itself or its parent. -/
def DirEntry.isDot (e : DirEntry) : Bool :=
  e.name = dot || e.name = dotDot

inductive SeekFrom where
  | start (offset : Nat)
  | current (delta : Int)
  | finish (delta : Int)
  deriving DecidableEq

structure OpenFlags where
  read : Bool := false
  write : Bool := false
  create : Bool := false
  exclusive : Bool := false
  truncate : Bool := false
  append : Bool := false
  deriving DecidableEq

namespace OpenFlags

/-- The flags as a number, one bit each. -/
def bits (f : OpenFlags) : Nat :=
  f.read.toNat + 2 * f.write.toNat + 4 * f.create.toNat + 8 * f.exclusive.toNat +
    16 * f.truncate.toNat + 32 * f.append.toNat

def union (f g : OpenFlags) : OpenFlags where
  read := f.read || g.read
  write := f.write || g.write
  create := f.create || g.create
  exclusive := f.exclusive || g.exclusive
  truncate := f.truncate || g.truncate
  append := f.append || g.append

def contains (f g : OpenFlags) : Bool :=
  f.union g = f

def reading : OpenFlags := { read := true }

/-- Write, making the file if it is not there. -/
def creating : OpenFlags := { write := true, create := true }

/-- Write at the end, making the file if it is not there. -/
def appending : OpenFlags := { write := true, create := true, append := true }

/-- Write from the start over an emptied file, making it if it is not there. -/
def replacing : OpenFlags := { write := true, create := true, truncate := true }

end OpenFlags

end PanelLink
