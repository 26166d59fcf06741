import PanelLink.Endpoint.Basic

/-! Commands on the tree of files, its directories and its room. -/
namespace PanelLink.Handler

variable {size chunk : Nat} {σ φ δ ε : Type}

/-- The working directory, as much of it as fits. -/
def pwd : Handler size chunk σ φ ε Reply := do
  let e ← endpoint
  ofExcept .ofReplyFull (done.append (e.cwd.take done.remaining))

variable [FileStore σ φ δ]

/-- Enter a directory. It has to exist, and its path has to fit. -/
def cd (payload : Bytes) : Handler size chunk σ φ ε Reply := do
  let raw ← ofExcept .validation (Path.extract payload Path.maxDirectory)
  let e ← endpoint
  let target ←
    match e.config.paths with
    | .literal => pure raw
    | .relative => ofExcept .validation (Path.resolve e.cwd raw)
  if Path.maxDirectory ≤ target.length then throw (.validation .pathTooLong)
  let dir ← callStore (FileStore.openDir · target)
  callStore (FileStore.closeDir · dir)
  modifyEndpoint fun e => { e with cwd := target }
  return done

def rm (payload : Bytes) : Handler size chunk σ φ ε Reply := do
  let path ← pathArgument payload
  callStore (FileStore.remove · path)
  return done

def mkdir (payload : Bytes) : Handler size chunk σ φ ε Reply := do
  let path ← pathArgument payload
  callStore (FileStore.mkdir · path)
  return done

/-- Make an empty file; one that is there stays as it is. -/
def touch (payload : Bytes) : Handler size chunk σ φ ε Reply := do
  let path ← pathArgument payload
  let f ← callStore (FileStore.openFile · path .creating)
  callStore (FileStore.closeFile · f)
  return done

/-- Close the file of an upload without what is pending, and forget the upload. -/
def abandonUpload : Handler size chunk σ φ ε Unit := do
  match (← endpoint).upload with
  | none => pure ()
  | some w =>
    modifyEndpoint fun e => { e with upload := none }
    always (Conduct.onStore fun s => ((), w.abandon s))

/-- Erase the store. The animation and the upload end first, and the host is back at the root. -/
def format : Handler size chunk σ φ ε Reply := do
  let _ ← always (Conduct.ofRoutine Device.stop)
  abandonUpload
  modifyEndpoint fun e => { e with cwd := rootDirectory, cursor := 0 }
  callStore FileStore.format
  callStore FileStore.mount
  return done

def flashRemaining : Handler size chunk σ φ ε Reply := do
  let used ← callStore FileStore.usedBlocks
  let (count, blockSize) ← always (Conduct.onStore fun s =>
    ((FileStore.blockCount s, FileStore.blockSize s), s))
  let reply ← ofExcept .ofReplyFull
    ((done.setStatus .flashRemaining).append (Bytes.ofWord (UInt32.ofNat (count - used))))
  ofExcept .ofReplyFull (reply.append (Bytes.ofWord (UInt32.ofNat blockSize)))

end PanelLink.Handler
