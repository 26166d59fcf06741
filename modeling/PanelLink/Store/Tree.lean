import PanelLink.Store.Entry

/-! A tree of files and directories, kept as the ascending list of its keys. -/
namespace PanelLink

/-- The components from the root to an entry; the root has none. -/
abbrev Key := List Bytes

/-- What a file holds. How many bytes there are is known at once; the bytes themselves are laid out
when they are first looked at, since a file may reach as far as a position does. -/
structure Body where
  length : Nat
  laid : Thunk Bytes
  length_laid : laid.get.length = length

namespace Body

def bytes (b : Body) : Bytes :=
  b.laid.get

def ofBytes (contents : Bytes) : Body :=
  ⟨contents.length, .pure contents, rfl⟩

@[simp] theorem length_ofBytes (contents : Bytes) : (ofBytes contents).length = contents.length :=
  rfl

@[simp] theorem bytes_ofBytes (contents : Bytes) : (ofBytes contents).bytes = contents := rfl

/-- A body is its bytes, laid out or not. -/
theorem exists_ofBytes : (b : Body) → ∃ contents, b = ofBytes contents
  | ⟨_, laid, rfl⟩ => ⟨laid.get, rfl⟩

theorem bytes_inj {a b : Body} (h : a.bytes = b.bytes) : a = b := by
  obtain ⟨contents, rfl⟩ := a.exists_ofBytes
  obtain ⟨others, rfl⟩ := b.exists_ofBytes
  exact congrArg ofBytes h

instance : DecidableEq Body := fun a b =>
  decidable_of_iff (a.bytes = b.bytes) ⟨bytes_inj, congrArg bytes⟩

end Body

inductive Node where
  | stored (body : Body)
  | dir
  deriving DecidableEq

namespace Node

/-- A file of certain contents. -/
@[reducible] def file (contents : Bytes) : Node :=
  stored (.ofBytes contents)

/-- Every node is a file of some contents or a directory. -/
@[cases_eliminator]
def casesContents {motive : Node → Sort u} (file : (contents : Bytes) → motive (file contents))
    (dir : motive dir) : (n : Node) → motive n
  | stored ⟨_, laid, rfl⟩ => file laid.get
  | .dir => dir

theorem file.inj {a b : Bytes} (h : file a = file b) : a = b :=
  congrArg Body.bytes (stored.inj h)

/-- What a node is to those who list it. -/
def kind : Node → EntryKind
  | stored _ => .file
  | dir => .dir

/-- The size as a 32-bit number; a directory has none. -/
def size : Node → Nat
  | stored body => body.length % Bytes.wordLimit
  | dir => 0

end Node

/-- Keys with their nodes, in ascending order. -/
abbrev Tree := List (Key × Node)

namespace Tree

def root : Tree := [([], .dir)]

def get? : Tree → Key → Option Node
  | [], _ => none
  | (k, n) :: t, key => if k = key then some n else get? t key

/-- Put a node at a key, in place of what stands there. -/
def insert (key : Key) (node : Node) : Tree → Tree
  | [] => [(key, node)]
  | (k, n) :: t =>
    if k = key then (key, node) :: t
    else if key < k then (key, node) :: (k, n) :: t
    else (k, n) :: insert key node t

def erase (key : Key) (t : Tree) : Tree :=
  t.filter (·.1 ≠ key)

/-- The name of an entry in `dir`, if the key is one. -/
def childName? (dir key : Key) : Option Bytes :=
  if key.dropLast = dir then key.getLast? else none

/-- The entries of a directory, in ascending order. -/
def children (dir : Key) (t : Tree) : List DirEntry :=
  t.filterMap fun (k, n) => (childName? dir k).map fun name => ⟨name, n.kind, n.size⟩

def nodes (t : Tree) : List Node :=
  t.map (·.2)

end Tree

end PanelLink
