import PanelLink.Endpoint.Basic

/-! Commands on the screen and the clock. -/
namespace PanelLink.Handler

variable {size chunk : Nat} {σ φ δ ε : Type}

def setTime (payload : Bytes) : Handler size chunk σ φ ε Reply := do
  match payload with
  | hour :: minute :: second :: _ =>
    if 23 < hour || 59 < minute || 59 < second then throw (.validation .outOfRange)
    modifyEndpoint fun e => { e with clock := some ⟨hour, minute, second⟩ }
    return done
  | _ => throw (.validation .insufficientData)

variable [FileStore σ φ δ]

/-- Play an animation or show a still image, as the path says. The pixels written so far are
forgotten, for both use their buffer. -/
def chooseImage (payload : Bytes) : Handler size chunk σ φ ε Reply := do
  let path ← pathArgument payload
  modifyEndpoint fun e => { e with cursor := 0 }
  if Path.isAnimation path then
    let _ ← ofExcept id (← always (Conduct.ofRoutine (Device.start path)))
  else
    ofExcept id (← always (Conduct.ofRoutine (Device.showStill path)))
  return done

/-- Write raw pixels; an animation ends first. -/
def writeDisplay (payload : Bytes) : Handler size chunk σ φ ε Reply := do
  if payload = [] then throw (.validation .insufficientData)
  if ← always (Conduct.onDevice fun d => (d.playback.playing, d)) then
    let _ ← always (Conduct.ofRoutine Device.stop)
  let e ← endpoint
  let (result, cursor) ← always (Conduct.onDevice (Device.writeRaw e.cursor payload))
  modifyEndpoint fun e => { e with cursor }
  ofExcept id result
  return done

end PanelLink.Handler
