import PanelLink.Endpoint.Basic

/-! Commands of an upload: open a file, write to its end, close it. There is at most one upload. -/
namespace PanelLink.Handler

variable {size chunk : Nat} {σ φ δ ε : Type} [FileStore σ φ δ]

/-- Begin an upload; the file is made if it is not there. -/
def openFile (payload : Bytes) : Handler size chunk σ φ ε Reply := do
  let path ← pathArgument payload
  if (← endpoint).upload.isSome then throw .alreadyOpen
  let f ← callStore (FileStore.openFile · path .appending)
  modifyEndpoint fun e => { e with upload := some (.ofFile f) }
  return done

/-- Add bytes to the upload. A failure of the store ends it; a packet out of sequence does not. -/
def writeFile (id : UInt32) (payload : Bytes) : Handler size chunk σ φ ε Reply := do
  if payload = [] then throw (.validation .insufficientData)
  let e ← endpoint
  match e.upload with
  | none => throw .notOpen
  | some w =>
    let (result, w) ← always (Conduct.onStore fun s =>
      let (result, w, s) := w.write s id payload e.config.enforceSequence
      ((result, w), s))
    match result with
    | .ok () =>
      modifyEndpoint fun e => { e with upload := some w }
      return done
    | .error failure =>
      if failure.isStorage then
        modifyEndpoint fun e => { e with upload := none }
        always (Conduct.onStore fun s => ((), w.abandon s))
      else modifyEndpoint fun e => { e with upload := some w }
      throw failure

/-- End the upload and store what is pending. -/
def closeFile : Handler size chunk σ φ ε Reply := do
  match (← endpoint).upload with
  | none => throw .notOpen
  | some w =>
    modifyEndpoint fun e => { e with upload := none }
    ofExcept id (← always (Conduct.onStore w.close))
    return done

end PanelLink.Handler
