import PanelLink.Proofs.Handler

/-!
What no command looks at. If a change to what the commands work on touches nothing that a command
looks at, the command does the same after the change, and the change is still there afterwards.
-/
namespace PanelLink

variable {size chunk : Nat} {σ φ δ ε α β γ : Type}

/-- `g` touches neither the settings, the directory, the upload nor the cursor, and commutes with
changes of them. -/
structure Unseen (g : Serving chunk φ ε → Serving chunk φ ε) : Prop where
  config (s) : (g s).endpoint.config = s.endpoint.config
  cwd (s) : (g s).endpoint.cwd = s.endpoint.cwd
  upload (s) : (g s).endpoint.upload = s.endpoint.upload
  cursor (s) : (g s).endpoint.cursor = s.endpoint.cursor
  enter (s) (cwd : Bytes) : { g s with endpoint := { (g s).endpoint with cwd } } =
    g { s with endpoint := { s.endpoint with cwd } }
  carry (s) (upload : Option (WriteSession chunk φ)) :
    { g s with endpoint := { (g s).endpoint with upload } } =
      g { s with endpoint := { s.endpoint with upload } }
  move (s) (cursor : Nat) : { g s with endpoint := { (g s).endpoint with cursor } } =
    g { s with endpoint := { s.endpoint with cursor } }

structure Unsent (g : Serving chunk φ ε → Serving chunk φ ε) : Prop extends Unseen g where
  outbox (s) : (g s).outbox = s.outbox
  post (s) (outbox : Outbox ε) : { g s with outbox } = g { s with outbox }

/-- The part does the same after the change as before it. -/
def Conduct.Blind (g : Serving chunk φ ε → Serving chunk φ ε) (c : Conduct size chunk σ φ ε α) :
    Prop :=
  ∀ s d, c.on (g s) d = (c.on s d).bind fun x w => .done (x.1, g x.2) w

abbrev Handler.Blind (g : Serving chunk φ ε → Serving chunk φ ε)
    (h : Handler size chunk σ φ ε α) : Prop :=
  Conduct.Blind g h.run

variable {g : Serving chunk φ ε → Serving chunk φ ε}

namespace Conduct.Blind

theorem bind {c : Conduct size chunk σ φ ε α} {f : α → Conduct size chunk σ φ ε β}
    (hc : Blind g c) (hf : ∀ a, Blind g (f a)) : Blind g (c >>= f) := by
  intro s d
  have hnext (a : α) (s : Serving chunk φ ε) (d : Device size σ φ) := hf a s d
  rw [on_bind, on_bind, hc s d, Run.bind_bind, Run.bind_bind]
  simp only [Run.done_bind, hnext]

theorem pure (a : α) : Blind g (Pure.pure a : Conduct size chunk σ φ ε α) :=
  fun _ _ => rfl

theorem onDevice (f : Device size σ φ → α × Device size σ φ) :
    Blind g (Conduct.onDevice f : Conduct size chunk σ φ ε α) :=
  fun _ _ => rfl

theorem onStore (f : σ → α × σ) : Blind g (Conduct.onStore f : Conduct size chunk σ φ ε α) :=
  fun _ _ => rfl

theorem ofRoutine (r : Routine (Device size σ φ) α) :
    Blind g (Conduct.ofRoutine r : Conduct size chunk σ φ ε α) := by
  intro s d
  rw [on_ofRoutine, on_ofRoutine, Run.bind_bind]
  rfl

theorem post (hg : Unsent g) (r : Reply) :
    Blind g (Conduct.post r : Conduct size chunk σ φ ε Bool) := by
  intro s d
  rw [on_post, on_post, hg.outbox, hg.post]
  split <;> rfl

end Conduct.Blind

namespace Handler.Blind

/-! ## The parts of a command -/

theorem bind {h : Handler size chunk σ φ ε α} {f : α → Handler size chunk σ φ ε β}
    (hh : Blind g h) (hf : ∀ a, Blind g (f a)) : Blind g (h >>= f) := by
  intro s d
  have hnext (x : Except CommandError α × Serving chunk φ ε) (w : Device size σ φ) :
      next f (x.1, g x.2) w = (next f x w).bind fun x w => .done (x.1, g x.2) w := by
    obtain ⟨_ | a, s⟩ := x
    · rfl
    · exact hf a s w
  have hrun : on h (g s) d = (on h s d).bind fun x w => .done (x.1, g x.2) w := hh s d
  rw [Conduct.on_run, Conduct.on_run, on_bind, on_bind, hrun, Run.bind_bind, Run.bind_bind]
  simp only [Run.done_bind, hnext]

theorem pure (a : α) : Blind g (Pure.pure a : Handler size chunk σ φ ε α) :=
  fun _ _ => rfl

theorem throw (e : CommandError) :
    Blind g (MonadExcept.throw e : Handler size chunk σ φ ε α) :=
  fun _ _ => rfl

theorem always {c : Conduct size chunk σ φ ε α} (hc : Conduct.Blind g c) :
    Blind g (Handler.always c) := by
  intro s d
  rw [Conduct.on_run, Conduct.on_run, on_always, on_always, hc s d, Run.bind_bind, Run.bind_bind]
  rfl

theorem ofExcept (cause : γ → CommandError) (r : Except γ α) :
    Blind g (Handler.ofExcept cause r : Handler size chunk σ φ ε α) := by
  intro s d
  rw [Conduct.on_run, Conduct.on_run, on_ofExcept, on_ofExcept]
  rfl

theorem callStore (f : σ → Except StorageError α × σ) :
    Blind g (Handler.callStore f : Handler size chunk σ φ ε α) :=
  (always (.onStore f)).bind fun _ => ofExcept _ _

/-- What comes after a look at the endpoint may use all of it that the change does not touch. -/
theorem look {f : Endpoint chunk φ → Handler size chunk σ φ ε α}
    (hsame : ∀ s, f (g s).endpoint = f s.endpoint) (hf : ∀ e, Blind g (f e)) :
    Blind g (endpoint >>= f) := by
  intro s d
  rw [Conduct.on_run, Conduct.on_run, on_bind, on_bind, on_endpoint, on_endpoint, Run.done_bind,
    Run.done_bind, next_ok, next_ok, hsame s]
  exact hf s.endpoint s d

theorem modify {f : Endpoint chunk φ → Endpoint chunk φ}
    (hf : ∀ s, { g s with endpoint := f (g s).endpoint } = g { s with endpoint := f s.endpoint }) :
    Blind g (modifyEndpoint f : Handler size chunk σ φ ε Unit) := by
  intro s d
  rw [Conduct.on_run, Conduct.on_run, on_modifyEndpoint, on_modifyEndpoint, hf]
  rfl

theorem send (hg : Unsent g) (r : Reply) :
    Blind g (Handler.send r : Handler size chunk σ φ ε Unit) := by
  refine (always (.post hg r)).bind fun taken => ?_
  cases taken with
  | false => exact throw _
  | true => exact pure ()

theorem flashRemaining [FileStore σ φ δ] :
    Blind g (Handler.flashRemaining : Handler size chunk σ φ ε Reply) := by
  refine .bind (.callStore _) fun used => .bind (.always (.onStore _)) fun sizes => ?_
  exact .bind (.ofExcept _ _) fun reply => .ofExcept _ _

end Handler.Blind

namespace Unseen

open Handler

variable (hg : Unseen g)
include hg

theorem meaning (s : Serving chunk φ ε) (raw : Bytes) :
    (g s).endpoint.meaning raw = s.endpoint.meaning raw := by
  simp only [Endpoint.meaning, hg.config, hg.cwd]

theorem path (payload : Bytes) :
    Blind g (pathArgument payload : Handler size chunk σ φ ε Bytes) := by
  intro s d
  have hpath : (g s).endpoint.pathOf payload = s.endpoint.pathOf payload := by
    simp only [Endpoint.pathOf, hg.meaning]
  rw [Conduct.on_run, Conduct.on_run, on_pathArgument, on_pathArgument, hpath]
  rfl

/-! ## Commands that send nothing -/

theorem pwd : Blind g (Handler.pwd : Handler size chunk σ φ ε Reply) := by
  refine .look (fun s => ?_) fun e => .ofExcept _ _
  rw [hg.cwd]

variable [FileStore σ φ δ]

theorem cd (payload : Bytes) : Blind g (Handler.cd payload : Handler size chunk σ φ ε Reply) := by
  have henter (target : Bytes) :
      Blind g (Handler.enter target : Handler size chunk σ φ ε Reply) := by
    refine .bind (.callStore _) fun dir => .bind (.callStore _) fun _ => ?_
    exact .bind (.modify fun s => hg.enter s target) fun _ => .pure _
  intro s d
  have htarget : (g s).endpoint.directoryOf payload = s.endpoint.directoryOf payload := by
    simp only [Endpoint.directoryOf, hg.meaning]
  rw [Conduct.on_run, Conduct.on_run, on_cd, on_cd, htarget]
  cases s.endpoint.directoryOf payload with
  | error x => rfl
  | ok target => exact henter target s d

theorem rm (payload : Bytes) : Blind g (Handler.rm payload : Handler size chunk σ φ ε Reply) := by
  refine .bind (hg.path payload) fun path => ?_
  exact .bind (.callStore _) fun _ => .pure _

theorem mkdir (payload : Bytes) :
    Blind g (Handler.mkdir payload : Handler size chunk σ φ ε Reply) := by
  refine .bind (hg.path payload) fun path => ?_
  exact .bind (.callStore _) fun _ => .pure _

theorem touch (payload : Bytes) :
    Blind g (Handler.touch payload : Handler size chunk σ φ ε Reply) := by
  refine .bind (hg.path payload) fun path => ?_
  exact .bind (.callStore _) fun f => .bind (.callStore _) fun _ => .pure _

theorem openFile (payload : Bytes) :
    Blind g (Handler.openFile payload : Handler size chunk σ φ ε Reply) := by
  have hopen (path : Bytes) : Blind g
      (do let f ← Handler.callStore (FileStore.openFile · path .appending)
          modifyEndpoint fun e => { e with upload := some (.ofFile f) }
          return Handler.done : Handler size chunk σ φ ε Reply) := by
    refine .bind (.callStore _) fun f => ?_
    exact .bind (.modify fun s => hg.carry s _) fun _ => .pure _
  refine .bind (hg.path payload) fun path => .look (fun s => ?_) fun e => ?_
  · rw [hg.upload]
  · split
    · exact .bind (h := MonadExcept.throw _) (.throw _) fun _ => hopen path
    · exact hopen path

theorem writeFile (id : UInt32) (payload : Bytes) :
    Blind g (Handler.writeFile id payload : Handler size chunk σ φ ε Reply) := by
  intro s d
  rw [Conduct.on_run, Conduct.on_run, on_writeFile, on_writeFile, hg.config, hg.upload]
  split
  · rfl
  cases s.endpoint.upload with
  | none => rfl
  | some w =>
    dsimp only
    rcases w.write d.store id payload s.endpoint.config.enforceSequence with ⟨x | _, w', t⟩
    · dsimp only
      split
      · rw [hg.carry]
        rfl
      · rw [hg.carry]
        rfl
    · dsimp only
      rw [hg.carry]
      rfl

theorem closeFile : Blind g (Handler.closeFile : Handler size chunk σ φ ε Reply) := by
  refine .look (fun s => ?_) fun e => ?_
  · rw [hg.upload]
  · cases e.upload with
    | none => exact .throw _
    | some w =>
      refine .bind (.modify fun s => hg.carry s none) fun _ => ?_
      exact .bind (.always (.onStore _)) fun r => .bind (.ofExcept _ _) fun _ => .pure _

theorem abandonUpload : Blind g (Handler.abandonUpload : Handler size chunk σ φ ε Unit) := by
  refine .look (fun s => ?_) fun e => ?_
  · rw [hg.upload]
  · cases e.upload with
    | none => exact .pure _
    | some w => exact .bind (.modify fun s => hg.carry s none) fun _ => .always (.onStore _)

theorem format : Blind g (Handler.format : Handler size chunk σ φ ε Reply) := by
  refine .bind (.always (.ofRoutine _)) fun _ => .bind hg.abandonUpload fun _ => ?_
  refine .bind (.modify fun s => ?_) fun _ => ?_
  · let reset (s : Serving chunk φ ε) : Serving chunk φ ε :=
      { s with endpoint := { s.endpoint with cursor := 0 } }
    have henter := congrArg reset (hg.enter s rootDirectory)
    exact henter.trans (hg.move _ 0)
  · exact .bind (.callStore _) fun _ => .bind (.callStore _) fun _ => .pure _

theorem chooseImage (payload : Bytes) :
    Blind g (Handler.chooseImage payload : Handler size chunk σ φ ε Reply) := by
  refine .bind (hg.path payload) fun path => .bind (.modify fun s => hg.move s 0) fun _ => ?_
  split
  · exact .bind (.always (.ofRoutine _)) fun r => .bind (.ofExcept _ _) fun _ => .pure _
  · exact .bind (.always (.ofRoutine _)) fun r => .bind (.ofExcept _ _) fun _ => .pure _

theorem writeDisplay (payload : Bytes) :
    Blind g (Handler.writeDisplay payload : Handler size chunk σ φ ε Reply) := by
  have hpaint (s : Serving chunk φ ε) (d : Device size σ φ) : on (paint payload) (g s) d =
      (on (paint payload) s d).bind fun x w => .done (x.1, g x.2) w := by
    rw [on_paint, on_paint, hg.cursor, hg.move]
    rfl
  intro s d
  rw [Conduct.on_run, Conduct.on_run, on_writeDisplay, on_writeDisplay]
  split
  · rfl
  split
  · rw [Run.bind_bind]
    simp only [hpaint]
  · exact hpaint s d

end Unseen

namespace Unsent

open Handler

variable (hg : Unsent g)
include hg

/-! ## Commands that send on the way -/

theorem spill (bytes : Bytes) (reply : Reply) :
    Blind g (Handler.spill bytes reply : Handler size chunk σ φ ε Reply) := by
  induction bytes generalizing reply with
  | nil => exact .pure _
  | cons b bs ih =>
    unfold Handler.spill
    split
    · exact ih _
    · exact .bind (.send hg reply) fun _ => .bind (.ofExcept _ _) fun reply => ih reply

theorem appendEntry (mode : ListingMode) (e : DirEntry) (reply : Reply) :
    Blind g (Handler.appendEntry mode e reply : Handler size chunk σ φ ε (Option Reply)) := by
  have hspill (bytes : Bytes) (reply : Reply) :
      Blind g (some <$> Handler.spill bytes reply : Handler size chunk σ φ ε (Option Reply)) := by
    rw [map_eq_pure_bind]
    exact .bind (hg.spill bytes reply) fun r => .pure _
  unfold Handler.appendEntry
  dsimp only
  split
  · exact hspill _ _
  split
  · exact .pure _
  split
  · exact hspill _ _
  · exact .bind (.send hg reply) fun _ => hspill _ _

variable [FileStore σ φ δ]

theorem appendEntries (mode : ListingMode) (n : Nat) (dir : δ) (reply : Reply) :
    Conduct.Blind g (Handler.appendEntries mode n dir reply : Conduct size chunk σ φ ε _) := by
  induction n generalizing dir reply with
  | zero => exact .pure _
  | succ n ih =>
    unfold Handler.appendEntries
    refine .bind (.onStore _) ?_
    rintro ⟨next, dir⟩
    dsimp only
    split
    · exact .pure _
    · exact .pure _
    · split
      · exact ih dir reply
      · refine .bind (hg.appendEntry mode _ reply) fun x => ?_
        split
        · exact .pure _
        · exact .pure _
        · exact ih dir _

theorem ls : Blind g (Handler.ls : Handler size chunk σ φ ε Reply) := by
  refine .look (fun s => ?_) fun e => ?_
  · simp only [listingTarget, hg.config, hg.cwd]
  refine .bind (.callStore _) fun dir => .bind (.always ?_) ?_
  · refine .bind (.onDevice _) fun _ => .bind (.onStore _) fun bound => ?_
    refine .bind (hg.appendEntries _ _ dir _) ?_
    rintro ⟨listed, dir⟩
    exact .bind (.onStore _) fun closed => .bind (.onDevice _) fun _ => .pure _
  · rintro ⟨listed, closed⟩
    refine .bind (.ofExcept _ _) fun reply => .bind (.ofExcept _ _) fun _ => ?_
    split
    · exact .bind (.send hg reply) fun _ => .pure _
    · exact .pure _

theorem sendPieces (n : Nat) (f : φ) :
    Conduct.Blind g (Handler.sendPieces n f : Conduct size chunk σ φ ε _) := by
  induction n generalizing f with
  | zero => exact .pure _
  | succ n ih =>
    unfold Handler.sendPieces
    refine .bind (.onStore _) ?_
    rintro ⟨bytes, f⟩
    dsimp only
    split
    · exact .pure _
    · exact .pure _
    · split
      · exact .pure _
      · refine .bind (Handler.Blind.send hg _) fun x => ?_
        split
        · exact .pure _
        · exact ih f

theorem cat (payload : Bytes) :
    Blind g (Handler.cat payload : Handler size chunk σ φ ε Reply) := by
  refine .bind (hg.path payload) fun path => .bind (.callStore _) fun f => .bind (.always ?_) ?_
  · refine .bind (.onDevice _) fun _ => .bind (.onStore _) fun bound => ?_
    refine .bind (hg.sendPieces _ f) ?_
    rintro ⟨streamed, f⟩
    exact .bind (.onStore _) fun closed => .bind (.onDevice _) fun _ => .pure _
  · rintro ⟨streamed, closed⟩
    exact .bind (.ofExcept _ _) fun _ => .bind (.ofExcept _ _) fun _ => .pure _

end Unsent

/-! ## Commands -/

/-- A command does the same after a change that it does not see. -/
theorem Unseen.execute [FileStore σ φ δ] (hg : Unseen g) (p : Packet)
    (hsends : p.command = .ls ∨ p.command = .cat → Unsent g)
    (htime : p.command = .setTime →
      Handler.Blind g (Handler.setTime p.payload : Handler size chunk σ φ ε Reply)) :
    Handler.Blind g (Handler.execute p : Handler size chunk σ φ ε Reply) := by
  unfold Handler.execute
  cases hcommand : p.command with
  | ls => exact (hsends (.inl hcommand)).ls
  | cat => exact (hsends (.inr hcommand)).cat _
  | setTime => exact htime hcommand
  | cd => exact hg.cd _
  | pwd => exact hg.pwd
  | rm => exact hg.rm _
  | mkdir => exact hg.mkdir _
  | touch => exact hg.touch _
  | openFile => exact hg.openFile _
  | writeFile => exact hg.writeFile _ _
  | closeFile => exact hg.closeFile
  | format => exact hg.format
  | flashRemaining => exact .flashRemaining
  | chooseImage => exact hg.chooseImage _
  | writeDisplay => exact hg.writeDisplay _

namespace Serving

def through (o : Outbox ε) (s : Serving chunk φ ε) : Serving chunk φ ε :=
  { s with outbox := o }

end Serving

end PanelLink
