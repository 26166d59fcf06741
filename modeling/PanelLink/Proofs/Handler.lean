import PanelLink.Proofs.Progress

/-! Handlers as runs: what each of their parts does, and each handler that sends nothing in full. -/
namespace PanelLink

variable {size chunk : Nat} {σ φ δ ε α β γ : Type}

namespace Endpoint

/-- The path that `raw` stands for under the settings. -/
def meaning (e : Endpoint chunk φ) (raw : Bytes) : Except ValidationError Bytes :=
  match e.config.paths with
  | .literal => .ok raw
  | .relative => Path.resolve e.cwd raw

def pathOf (e : Endpoint chunk φ) (payload : Bytes) : Except ValidationError Bytes :=
  match Path.extract payload Path.maxLength with
  | .error x => .error x
  | .ok raw => e.meaning raw

def directoryOf (e : Endpoint chunk φ) (payload : Bytes) : Except ValidationError Bytes :=
  match Path.extract payload Path.maxDirectory with
  | .error x => .error x
  | .ok raw =>
    match e.meaning raw with
    | .error x => .error x
    | .ok target => if Path.maxDirectory ≤ target.length then .error .pathTooLong else .ok target

end Endpoint

namespace Device

variable [FileStore σ φ δ]

theorem stop_eq (d : Device size σ φ) :
    Device.stop d =
      if d.playback.loaderActive then
        (awaitLeft d.requestStop.2).bind fun _ w =>
          .done d.playback.playing (w.teardown d.playback.playing)
      else .done d.playback.playing (d.requestStop.2.teardown d.playback.playing) := by
  unfold stop
  show (if d.playback.loaderActive = true then _ else _ : Routine (Device size σ φ) Bool)
    d.requestStop.2 = _
  cases d.playback.loaderActive <;> rfl

end Device

def Conduct.on (c : Conduct size chunk σ φ ε α) (s : Serving chunk φ ε) (d : Device size σ φ) :
    Run (Device size σ φ) (α × Serving chunk φ ε) := c s d

/-- The run of a handler. -/
def Handler.on (h : Handler size chunk σ φ ε α) (s : Serving chunk φ ε) (d : Device size σ φ) :
    Run (Device size σ φ) (Except CommandError α × Serving chunk φ ε) := h s d

namespace Conduct

variable (s : Serving chunk φ ε) (d : Device size σ φ)

theorem on_pure (a : α) : on (pure a : Conduct size chunk σ φ ε α) s d = .done (a, s) d := rfl

theorem on_bind (c : Conduct size chunk σ φ ε α) (f : α → Conduct size chunk σ φ ε β) :
    on (c >>= f) s d = (on c s d).bind fun x d => on (f x.1) x.2 d := rfl

theorem on_run (h : Handler size chunk σ φ ε α) : on h.run s d = Handler.on h s d := rfl

theorem on_onDevice (f : Device size σ φ → α × Device size σ φ) :
    on (onDevice f : Conduct size chunk σ φ ε α) s d = .done ((f d).1, s) (f d).2 := rfl

theorem on_onStore (f : σ → α × σ) :
    on (onStore f : Conduct size chunk σ φ ε α) s d =
      .done ((f d.store).1, s) { d with store := (f d.store).2 } := rfl

theorem on_setHeld (held : Bool) :
    on (setHeld held : Conduct size chunk σ φ ε Unit) s d = .done ((), s) { d with held := held } :=
  rfl

theorem on_ofRoutine (r : Routine (Device size σ φ) α) :
    on (ofRoutine r : Conduct size chunk σ φ ε α) s d = (r d).bind fun a d => .done (a, s) d := rfl

theorem on_post (r : Reply) :
    on (post r : Conduct size chunk σ φ ε Bool) s d =
      if (s.outbox.post r).1 && s.outbox.transport.slow then
        .paused .delivery d (.done ((s.outbox.post r).1, { s with outbox := (s.outbox.post r).2 }))
      else .done ((s.outbox.post r).1, { s with outbox := (s.outbox.post r).2 }) d := by
  have ht : (s.outbox.post r).2.transport = s.outbox.transport := by
    unfold Outbox.post
    split
    · rfl
    · split <;> rfl
  simp only [on, post, ht]

end Conduct

namespace Handler

def next (f : α → Handler size chunk σ φ ε β) (x : Except CommandError α × Serving chunk φ ε)
    (d : Device size σ φ) : Run (Device size σ φ) (Except CommandError β × Serving chunk φ ε) :=
  match x with
  | (.ok a, s) => on (f a) s d
  | (.error e, s) => .done (.error e, s) d

variable (s : Serving chunk φ ε) (d : Device size σ φ)

theorem next_ok (f : α → Handler size chunk σ φ ε β) (a : α) :
    next f (.ok a, s) d = on (f a) s d := rfl

theorem next_error (f : α → Handler size chunk σ φ ε β) (e : CommandError) :
    next f (.error e, s) d = .done (.error e, s) d := rfl

theorem on_bind (h : Handler size chunk σ φ ε α) (f : α → Handler size chunk σ φ ε β) :
    on (h >>= f) s d = (on h s d).bind (next f) := by
  show Run.bind _ (h s d) = _
  unfold on
  congr 1
  funext x d
  obtain ⟨_ | _, _⟩ := x <;> rfl

theorem on_pure (a : α) : on (pure a : Handler size chunk σ φ ε α) s d = .done (.ok a, s) d := rfl

theorem on_throw (e : CommandError) :
    on (throw e : Handler size chunk σ φ ε α) s d = .done (.error e, s) d := rfl

theorem on_always (c : Conduct size chunk σ φ ε α) :
    on (always c) s d = (c.on s d).bind fun x d => .done (.ok x.1, x.2) d := rfl

theorem on_endpoint :
    on (endpoint : Handler size chunk σ φ ε _) s d = .done (.ok s.endpoint, s) d := rfl

theorem on_modifyEndpoint (f : Endpoint chunk φ → Endpoint chunk φ) :
    on (modifyEndpoint f : Handler size chunk σ φ ε Unit) s d =
      .done (.ok (), { s with endpoint := f s.endpoint }) d := rfl

theorem mapError_ok (cause : γ → CommandError) (a : α) :
    (.ok a : Except γ α).mapError cause = .ok a := rfl

theorem mapError_error (cause : γ → CommandError) (x : γ) :
    (.error x : Except γ α).mapError cause = .error (cause x) := rfl

theorem on_ofExcept (cause : γ → CommandError) (r : Except γ α) :
    on (ofExcept cause r : Handler size chunk σ φ ε α) s d = .done (r.mapError cause, s) d := by
  cases r <;> rfl

theorem on_callStore (f : σ → Except StorageError α × σ) :
    on (callStore f : Handler size chunk σ φ ε α) s d =
      .done ((f d.store).1.mapError .storage, s) { d with store := (f d.store).2 } := by
  simp only [callStore, on_bind, on_always, Conduct.on_onStore, Run.done_bind, next_ok, on_ofExcept]

theorem on_pathArgument (payload : Bytes) :
    on (pathArgument payload : Handler size chunk σ φ ε Bytes) s d =
      .done ((s.endpoint.pathOf payload).mapError .validation, s) d := by
  unfold pathArgument Endpoint.pathOf Endpoint.meaning
  cases Path.extract payload Path.maxLength with
  | error x => rfl
  | ok raw =>
    simp only [on_bind, on_ofExcept, Run.done_bind, mapError_ok, next_ok, on_endpoint]
    cases h : s.endpoint.config.paths with
    | literal => simp only [on_pure, mapError_ok]
    | relative => simp only [on_ofExcept]

attribute [local simp] Run.done_bind Run.paused_bind next_ok next_error on_bind on_pure on_throw
  on_always on_endpoint on_modifyEndpoint on_ofExcept on_callStore on_pathArgument
  Conduct.on_onStore Conduct.on_onDevice Conduct.on_ofRoutine mapError_ok mapError_error
attribute [-simp] bind_pure_comp

theorem on_pwd :
    on (pwd : Handler size chunk σ φ ε Reply) s d =
      .done ((done.append (s.endpoint.cwd.take done.remaining)).mapError .ofReplyFull, s) d := by
  simp [pwd]

theorem on_setTime (payload : Bytes) :
    on (setTime payload : Handler size chunk σ φ ε Reply) s d =
      match payload with
      | hour :: minute :: second :: _ =>
        if 23 < hour || 59 < minute || 59 < second then
          .done (.error (.validation .outOfRange), s) d
        else
          .done (.ok done,
            { s with endpoint := { s.endpoint with clock := some ⟨hour, minute, second⟩ } }) d
      | _ => .done (.error (.validation .insufficientData), s) d := by
  unfold setTime
  split
  · split <;> simp_all
  · simp

variable [FileStore σ φ δ]

theorem on_rm (payload : Bytes) :
    on (rm payload : Handler size chunk σ φ ε Reply) s d =
      match s.endpoint.pathOf payload with
      | .error x => .done (.error (.validation x), s) d
      | .ok path =>
        match FileStore.remove d.store path with
        | (.error x, t) => .done (.error (.storage x), s) { d with store := t }
        | (.ok (), t) => .done (.ok done, s) { d with store := t } := by
  unfold rm
  cases h : s.endpoint.pathOf payload with
  | error x => simp [h]
  | ok path => rcases hr : FileStore.remove d.store path with ⟨x | _, t⟩ <;> simp [h, hr]

theorem on_mkdir (payload : Bytes) :
    on (mkdir payload : Handler size chunk σ φ ε Reply) s d =
      match s.endpoint.pathOf payload with
      | .error x => .done (.error (.validation x), s) d
      | .ok path =>
        match FileStore.mkdir d.store path with
        | (.error x, t) => .done (.error (.storage x), s) { d with store := t }
        | (.ok (), t) => .done (.ok done, s) { d with store := t } := by
  unfold mkdir
  cases h : s.endpoint.pathOf payload with
  | error x => simp [h]
  | ok path => rcases hr : FileStore.mkdir d.store path with ⟨x | _, t⟩ <;> simp [h, hr]

theorem on_touch (payload : Bytes) :
    on (touch payload : Handler size chunk σ φ ε Reply) s d =
      match s.endpoint.pathOf payload with
      | .error x => .done (.error (.validation x), s) d
      | .ok path =>
        match FileStore.openFile d.store path .creating with
        | (.error x, t) => .done (.error (.storage x), s) { d with store := t }
        | (.ok f, t) =>
          match FileStore.closeFile t f with
          | (.error x, t) => .done (.error (.storage x), s) { d with store := t }
          | (.ok (), t) => .done (.ok done, s) { d with store := t } := by
  unfold touch
  cases h : s.endpoint.pathOf payload with
  | error x => simp [h]
  | ok path =>
    rcases ho : FileStore.openFile d.store path .creating with ⟨x | f, t⟩
    · simp [h, ho]
    · rcases hc : FileStore.closeFile t f with ⟨x | _, t'⟩ <;> simp [h, ho, hc]

def enter (target : Bytes) : Handler size chunk σ φ ε Reply := do
  let dir ← callStore (FileStore.openDir · target)
  callStore (FileStore.closeDir · dir)
  modifyEndpoint fun e => { e with cwd := target }
  return done

theorem on_enter (target : Bytes) :
    on (enter target : Handler size chunk σ φ ε Reply) s d =
      match FileStore.openDir d.store target with
      | (.error x, t) => .done (.error (.storage x), s) { d with store := t }
      | (.ok dir, t) =>
        match FileStore.closeDir t dir with
        | (.error x, t) => .done (.error (.storage x), s) { d with store := t }
        | (.ok (), t) =>
          .done (.ok done, { s with endpoint := { s.endpoint with cwd := target } })
            { d with store := t } := by
  unfold enter
  rcases ho : FileStore.openDir d.store target with ⟨x | dir, t⟩
  · simp [ho]
  · rcases hc : FileStore.closeDir t dir with ⟨x | _, t'⟩ <;> simp [ho, hc]

theorem on_cd (payload : Bytes) :
    on (cd payload : Handler size chunk σ φ ε Reply) s d =
      match s.endpoint.directoryOf payload with
      | .error x => .done (.error (.validation x), s) d
      | .ok target => on (enter target) s d := by
  unfold cd enter Endpoint.directoryOf Endpoint.meaning
  cases hx : Path.extract payload Path.maxDirectory with
  | error x => simp
  | ok raw =>
    cases hp : s.endpoint.config.paths with
    | literal => by_cases hl : Path.maxDirectory ≤ raw.length <;> simp [hp, hl]
    | relative =>
      cases hr : Path.resolve s.endpoint.cwd raw with
      | error x => simp [hp, hr]
      | ok target => by_cases hl : Path.maxDirectory ≤ target.length <;> simp [hp, hr, hl]

theorem on_openFile (payload : Bytes) :
    on (openFile payload : Handler size chunk σ φ ε Reply) s d =
      match s.endpoint.pathOf payload with
      | .error x => .done (.error (.validation x), s) d
      | .ok path =>
        if s.endpoint.upload.isSome then .done (.error .alreadyOpen, s) d
        else
          match FileStore.openFile d.store path .appending with
          | (.error x, t) => .done (.error (.storage x), s) { d with store := t }
          | (.ok f, t) =>
            .done (.ok done,
              { s with endpoint := { s.endpoint with upload := some (.ofFile f) } })
              { d with store := t } := by
  unfold openFile
  cases h : s.endpoint.pathOf payload with
  | error x => simp [h]
  | ok path =>
    cases hu : s.endpoint.upload with
    | some w => simp [h, hu]
    | none =>
      rcases ho : FileStore.openFile d.store path .appending with ⟨x | f, t⟩ <;> simp [h, hu, ho]

theorem on_writeFile (id : UInt32) (payload : Bytes) :
    on (writeFile id payload : Handler size chunk σ φ ε Reply) s d =
      if payload = [] then .done (.error (.validation .insufficientData), s) d
      else
        match s.endpoint.upload with
        | none => .done (.error .notOpen, s) d
        | some w =>
          match w.write d.store id payload s.endpoint.config.enforceSequence with
          | (.ok (), w, t) =>
            .done (.ok done, { s with endpoint := { s.endpoint with upload := some w } })
              { d with store := t }
          | (.error x, w, t) =>
            if x.isStorage then
              .done (.error x, { s with endpoint := { s.endpoint with upload := none } })
                { d with store := w.abandon t }
            else
              .done (.error x, { s with endpoint := { s.endpoint with upload := some w } })
                { d with store := t } := by
  unfold writeFile
  by_cases hp : payload = []
  · simp [hp]
  cases hu : s.endpoint.upload with
  | none => simp [hp, hu]
  | some w =>
    rcases hw : w.write d.store id payload s.endpoint.config.enforceSequence with ⟨x | _, w', t⟩
    · cases hx : x.isStorage <;> simp [hp, hu, hw, hx]
    · simp [hp, hu, hw]

theorem on_closeFile :
    on (closeFile : Handler size chunk σ φ ε Reply) s d =
      match s.endpoint.upload with
      | none => .done (.error .notOpen, s) d
      | some w =>
        .done ((w.close d.store).1.map fun _ => done,
          { s with endpoint := { s.endpoint with upload := none } })
          { d with store := (w.close d.store).2 } := by
  unfold closeFile
  cases hu : s.endpoint.upload with
  | none => simp [hu]
  | some w => rcases hc : w.close d.store with ⟨x | _, t⟩ <;> simp [hu, hc, Except.map]

theorem on_abandonUpload :
    on (abandonUpload : Handler size chunk σ φ ε Unit) s d =
      match s.endpoint.upload with
      | none => .done (.ok (), s) d
      | some w =>
        .done (.ok (), { s with endpoint := { s.endpoint with upload := none } })
          { d with store := w.abandon d.store } := by
  unfold abandonUpload
  cases hu : s.endpoint.upload with
  | none => simp [hu]
  | some w => simp [hu]

theorem on_flashRemaining :
    on (flashRemaining : Handler size chunk σ φ ε Reply) s d =
      match FileStore.usedBlocks d.store with
      | (.error x, t) => .done (.error (.storage x), s) { d with store := t }
      | (.ok used, t) =>
        .done ((((done.setStatus .flashRemaining).append
              (Bytes.ofWord (UInt32.ofNat (FileStore.blockCount t - used)))).bind
            (·.append (Bytes.ofWord (UInt32.ofNat (FileStore.blockSize t))))).mapError .ofReplyFull,
              s)
          { d with store := t } := by
  unfold flashRemaining
  rcases hu : FileStore.usedBlocks d.store with ⟨x | used, t⟩
  · simp [hu]
  · simp [hu]
    cases (done.setStatus .flashRemaining).append
      (Bytes.ofWord (UInt32.ofNat (FileStore.blockCount t - used))) <;> simp [Except.bind]

/-- The part of a format after the animation is stopped. -/
def wipe : Handler size chunk σ φ ε Reply := do
  abandonUpload
  modifyEndpoint fun e => { e with cwd := rootDirectory, cursor := 0 }
  callStore FileStore.format
  callStore FileStore.mount
  return done

theorem on_format :
    on (format : Handler size chunk σ φ ε Reply) s d =
      (Device.stop d).bind fun _ d => on wipe s d := by
  simp [format, wipe, Run.bind_bind]

theorem on_chooseImage (payload : Bytes) :
    on (chooseImage payload : Handler size chunk σ φ ε Reply) s d =
      match s.endpoint.pathOf payload with
      | .error x => .done (.error (.validation x), s) d
      | .ok path =>
        if Path.isAnimation path then
          (Device.start path d).bind fun r w =>
            .done (r.map fun _ => done, { s with endpoint := { s.endpoint with cursor := 0 } }) w
        else
          (Device.showStill path d).bind fun r w =>
            .done (r.map fun _ => done, { s with endpoint := { s.endpoint with cursor := 0 } })
              w := by
  unfold chooseImage
  cases h : s.endpoint.pathOf payload with
  | error x => simp [h]
  | ok path =>
    by_cases hp : Path.isAnimation path = true <;>
      simp [h, hp, Run.bind_bind] <;>
      congr 1 <;>
      funext r w <;>
      cases r <;>
      rfl

/-- The part of writing pixels after the animation is stopped. -/
def paint (payload : Bytes) : Handler size chunk σ φ ε Reply := do
  let e ← endpoint
  let (result, cursor) ← always (Conduct.onDevice (Device.writeRaw e.cursor payload))
  modifyEndpoint fun e => { e with cursor }
  ofExcept id result
  return done

theorem on_paint (payload : Bytes) :
    on (paint payload : Handler size chunk σ φ ε Reply) s d =
      .done ((Device.writeRaw s.endpoint.cursor payload d).1.1.map fun _ => done,
        { s with endpoint := { s.endpoint with
            cursor := (Device.writeRaw s.endpoint.cursor payload d).1.2 } })
        (Device.writeRaw s.endpoint.cursor payload d).2 := by
  unfold paint
  rcases hw : Device.writeRaw s.endpoint.cursor payload d with ⟨⟨x | _, cursor⟩, w⟩ <;>
    simp [hw, Except.map]

theorem on_writeDisplay (payload : Bytes) :
    on (writeDisplay payload : Handler size chunk σ φ ε Reply) s d =
      if payload = [] then .done (.error (.validation .insufficientData), s) d
      else if d.playback.playing then (Device.stop d).bind fun _ w => on (paint payload) s w
      else on (paint payload) s d := by
  unfold writeDisplay
  by_cases hp : payload = []
  · simp [hp]
  · cases hplay : d.playback.playing with
    | true => simp [hp, hplay, paint, Run.bind_bind]
    | false => simp [hp, hplay, paint]

end Handler

namespace Conduct

variable [FileStore σ φ δ] (s : Serving chunk φ ε) (d : Device size σ φ)

/-- The end of a command: its last reply, unless the transport has refused one. -/
def conclude (result : Except CommandError Reply) : Conduct size chunk σ φ ε (Except ε Status) := do
  match (← get).outbox.failure with
  | some e => return .error e
  | none => finish (finalReply result)

theorem on_conclude (result : Except CommandError Reply) :
    on (conclude result : Conduct size chunk σ φ ε _) s d =
      match s.outbox.failure with
      | some e => .done (.error e, s) d
      | none => on (finish (finalReply result)) s d := by
  show on (match s.outbox.failure with
    | some e => pure (.error e)
    | none => finish (finalReply result)) s d = _
  cases s.outbox.failure <;> rfl

theorem on_finish (reply : Reply) :
    on (finish reply : Conduct size chunk σ φ ε _) s d =
      (on (post reply) s d).bind fun x d =>
        .done (x.2.outbox.failure.elim (.ok reply.status) .error, x.2) d := by
  show Run.bind _ (on (post reply) s d) = _
  congr 1
  funext x d
  show on (match x.2.outbox.failure with
    | some e => pure (Except.error e)
    | none => pure (Except.ok reply.status)) x.2 d = _
  cases x.2.outbox.failure <;> rfl

theorem on_serve {frame : Bytes} {p : Packet} (h : Packet.decode frame = .ok p) :
    on (serve frame : Conduct size chunk σ φ ε _) s d =
      (Handler.on (Handler.execute p) s d).bind fun x d => on (conclude x.1) x.2 d := by
  unfold serve
  rw [h]
  rfl

end Conduct

namespace Request

variable [FileStore σ φ δ] (e : Endpoint chunk φ) (d : Device size σ φ)

theorem routine_frame (transport : Transport ε) (bytes : Bytes) :
    (frame transport bytes).routine e d =
      ((Conduct.serve bytes).on ⟨e, .empty transport⟩ d).bind fun x w =>
        .done (.served x.1 x.2.outbox.sent, x.2.endpoint) w :=
  Run.bind_bind _ _ _

theorem routine_stop :
    (stop : Request ε).routine e d =
      (Device.stop d).bind fun b w => .done (.stopped b, e) w := rfl

theorem routine_start (path : Bytes) :
    (start path : Request ε).routine e d =
      (Device.start path d).bind fun r w => .done (.started r, e) w := rfl

theorem routine_showStill (path : Bytes) :
    (showStill path : Request ε).routine e d =
      (Device.showStill path d).bind fun r w => .done (.shown r, e) w := rfl

theorem routine_loadConfig :
    (loadConfig : Request ε).routine e d =
      .done (.loaded (Config.load d.store).1, e) { d with store := (Config.load d.store).2 } := rfl

end Request

end PanelLink
