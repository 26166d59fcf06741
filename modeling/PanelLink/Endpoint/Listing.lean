import PanelLink.Endpoint.Basic

/-!
Listing a directory: each entry is its name, a mark for its kind and a line feed. A listing goes out
in pieces that keep entries whole where they fit, or stops at the first that does not.
-/
namespace PanelLink.Handler

variable {size chunk : Nat} {σ φ δ ε : Type}

def mark : EntryKind → UInt8
  | .dir => 47
  | .file => 32

def entryLine (e : DirEntry) : Bytes :=
  e.name ++ [mark e.kind, 10]

/-- Add bytes in turn; a reply that is full goes out first. -/
def spill : Bytes → Reply → Handler size chunk σ φ ε Reply
  | [], reply => return reply
  | b :: bs, reply =>
    match reply.push b with
    | .ok reply => spill bs reply
    | .error _ => do
      send reply
      let reply ← ofExcept .ofReplyFull (reply.clear.push b)
      spill bs reply

/-- Add an entry. In split mode a reply that has no room for it goes out first, and none is the
answer when the listing stops before it. -/
def appendEntry (mode : ListingMode) (e : DirEntry) (reply : Reply) :
    Handler size chunk σ φ ε (Option Reply) := do
  let line := entryLine e
  if line.length ≤ reply.remaining then some <$> spill line reply
  else
    match mode with
    | .truncate => return none
    | .split =>
      if reply.isEmpty then some <$> spill line reply
      else
        send reply
        some <$> spill line reply.clear

variable [FileStore σ φ δ]

/-- Add the entries of a directory, at most so many, but not the two that every directory has. -/
def appendEntries (mode : ListingMode) :
    Nat → δ → Reply → Conduct size chunk σ φ ε (Except CommandError Reply × δ)
  | 0, dir, reply => return (.ok reply, dir)
  | n + 1, dir, reply => do
    let (next, dir) ← Conduct.onStore fun s =>
      let (next, dir, s) := FileStore.readDir s dir
      ((next, dir), s)
    match next with
    | .error e => return (.error (.storage e), dir)
    | .ok none => return (.ok reply, dir)
    | .ok (some e) =>
      if e.isDot then appendEntries mode n dir reply
      else
        match ← (appendEntry mode e reply).run with
        | .error e => return (.error e, dir)
        | .ok none => return (.ok reply, dir)
        | .ok (some reply) => appendEntries mode n dir reply

def listingTarget (e : Endpoint chunk φ) : Bytes :=
  match e.config.paths with
  | .literal => rootDirectory
  | .relative => e.cwd

/-- List a directory. The store is held until it is closed; the last piece of a split listing goes
out after that, and the final reply has no entries. -/
def ls : Handler size chunk σ φ ε Reply := do
  let e ← endpoint
  let dir ← callStore (FileStore.openDir · (listingTarget e))
  let (listed, closed) ← always do
    Conduct.setHeld true
    let bound ← Conduct.onStore fun s => (FileStore.entriesLeft s dir, s)
    let (listed, dir) ← appendEntries e.config.listing (bound + 1) dir done
    let closed ← Conduct.onStore (FileStore.closeDir · dir)
    Conduct.setHeld false
    return (listed, closed)
  let reply ← ofExcept id listed
  ofExcept .storage closed
  if e.config.listing = .split ∧ !reply.isEmpty then
    send reply
    return reply.clear
  return reply

end PanelLink.Handler
