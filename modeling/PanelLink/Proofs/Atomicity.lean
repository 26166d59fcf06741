import PanelLink.Proofs.Calls
import PanelLink.Proofs.Discipline
import PanelLink.Proofs.Holding

/-!
Commands that fail without a trace. What they have asked of the store until they fail differs from
nothing at all only in the books of the volume, and the endpoint is told of a change only after the
last call that can fail.
-/
namespace PanelLink

variable {size chunk : Nat} {σ φ δ ε α : Type}

/-! ## What does not last -/

namespace Command

/-- The commands that change nothing when they fail, or for some of their failures. -/
def tentative : Command → Bool
  | ls | cd | pwd | rm | mkdir | cat | openFile | flashRemaining | writeFile => true
  | _ => false

/-- Whether the last status of a tentative command tells that it has changed nothing. -/
def undone (c : Command) (status : Status) : Bool :=
  if c = writeFile then status = .notOpen || status = .sequenceError
  else status ≠ .success && status ≠ .flashRemaining

end Command

structure Outbox.Prompt (o : Outbox ε) : Prop where
  transport : o.transport = .instant
  unbroken : o.failure = none

theorem Outbox.Prompt.quick {o : Outbox ε} (h : o.Prompt) : o.transport.slow = false := by
  rw [h.transport]
  rfl

theorem Outbox.Prompt.free {o : Outbox ε} (h : o.Prompt) : o.Free where
  unbroken := h.unbroken
  accepts n := by
    rw [h.transport]
    rfl

theorem Outbox.Prompt.post {o : Outbox ε} (h : o.Prompt) (r : Reply) : (o.post r).2.Prompt := by
  rw [h.free.post_eq]
  exact ⟨h.transport, h.unbroken⟩

/-- A call that changes nothing where the volume fails it changes nothing where the store fails
it. -/
theorem Passes.failed {v v' : Volume} {answer : Except StorageError α × Volume} {e : StorageError}
    (h : Passes v answer (.error e) v') (hv : ∀ x, answer.1 = .error x → v.Same answer.2) :
    v.Same v' := by
  obtain rfl | ⟨-, rfl⟩ := h
  · exact hv e rfl
  · exact .refl v'

/-- Taking bytes fails only where the store fails. -/
theorem WriteSession.accept_error [FileStore σ φ δ] (data : Bytes) {c : ChunkBuffer chunk}
    {t : φ × σ} {x : CommandError} (hx : (c.accept WriteSession.commit data t).1 = .error x) :
    x.isStorage = true := by
  induction data generalizing c t with
  | nil => cases hx
  | cons b bs ih =>
    unfold ChunkBuffer.accept at hx
    dsimp only at hx
    split at hx
    · exact ih hx
    unfold WriteSession.commit at hx
    split at hx
    · rename_i hcommit
      split at hcommit
      · cases hcommit
        cases hx
        rfl
      · split at hcommit
        · cases hcommit
        · cases hcommit
          cases hx
          rfl
    · exact ih hx

/-- A packet that a session refuses is out of sequence and changes nothing. Any other failure is the
store's. -/
theorem WriteSession.write_error [FileStore σ φ δ] (w : WriteSession chunk φ) (s : σ) (id : UInt32)
    (data : Bytes) (enforce : Bool) :
    (∃ x, x.isStorage = false ∧ w.write s id data enforce = (.error x, w, s)) ∨
    ∀ x, (w.write s id data enforce).1 = .error x → x.isStorage = true := by
  unfold WriteSession.write
  split
  · rename_i x hx
    refine .inl ⟨x, ?_, rfl⟩
    unfold WriteSession.sequenceFailure at hx
    split at hx
    · cases hx
    · split at hx
      · rw [← Option.some.inj hx]
        rfl
      · cases hx
  · exact .inr fun x hx => accept_error data hx

theorem CommandError.undone_of_storage {x : CommandError} (h : x.isStorage = true) :
    Command.writeFile.undone x.status = false := by
  cases x with
  | storage e => cases e <;> rfl
  | shortWrite n m => rfl
  | _ => cases h

variable [FileStore σ φ δ] [Backed σ φ δ]

/-- The devices are equal but for the books of the volume. -/
structure Device.Intact (d w : Device size σ φ) : Prop where
  rest : w = { d with store := w.store }
  volume : (Backed.volume d.store).Same (Backed.volume w.store)

theorem Device.Intact.refl (d : Device size σ φ) : d.Intact d :=
  ⟨rfl, .refl _⟩

theorem Device.Intact.step {d w : Device size σ φ} (h : d.Intact w) {t : σ}
    (ht : (Backed.volume w.store).Same (Backed.volume t)) : d.Intact { w with store := t } where
  rest := by rw [h.rest]
  volume := h.volume.trans ht

/-- A call that the volume leaves undone when it fails. -/
theorem Device.Intact.failed {d : Device size σ φ} {c : Volume.Call}
    {answer : Except StorageError α × Volume} {x : StorageError} {t : σ}
    (hpass : Passes (Backed.volume d.store) answer (.error x) (Backed.volume t))
    (hfailure : ((Backed.volume d.store).perform c).failure = Volume.failure answer.1)
    (hvolume : ((Backed.volume d.store).perform c).volume = answer.2) :
    d.Intact { d with store := t } := by
  refine (Device.Intact.refl d).step (hpass.failed fun y hy => ?_)
  rw [← hvolume]
  exact (Volume.perform_failed (hfailure.trans (congrArg Volume.failure hy))).2

theorem Backed.openDir_same (s : σ) (path : Bytes) :
    (Backed.volume s).Same (Backed.volume (FileStore.openDir s path).2) := by
  refine (Backed.openDir s path).keeps ?_
  rw [Volume.openDir_tree]
  exact .refl _

/-! ## Single commands -/

namespace Handler

variable {R : Pause → Device size σ φ → Device size σ φ → Prop}

abbrev never : Pause → Device size σ φ → Device size σ φ → Prop :=
  fun _ _ _ => False

def Browsing (e : Endpoint chunk φ) (d : Device size σ φ) :
    CommandHandle φ δ → Assertion size chunk σ φ ε :=
  fun _ _ s w => s.endpoint = e ∧ s.outbox.Prompt ∧ d.Intact { w with held := d.held }

theorem browsing_reading (e : Endpoint chunk φ) (d : Device size σ φ) :
    KeptByReading R never (Browsing e d : CommandHandle φ δ → Assertion size chunk σ φ ε) := by
  have hstep {l l' v s t} {w : Device size σ φ}
      (h : (Browsing e d : CommandHandle φ δ → Assertion size chunk σ φ ε) l v s w)
      (ht : (Backed.volume w.store).Same (Backed.volume t)) :
      (Browsing e d : CommandHandle φ δ → Assertion size chunk σ φ ε) l' v s
        { w with store := t } := by
    obtain ⟨he, ho, hw⟩ := h
    exact ⟨he, ho, hw.step ht⟩
  have hread (t : σ) (path : Bytes) : (Backed.volume t).Same
      (Backed.volume (FileStore.openFile t path .reading).2) := by
    refine (Backed.openFile t path .reading).keeps ?_
    obtain ⟨_, h⟩ | ⟨_, -, -, ⟨_, -, -, h⟩ | ⟨_, -, hw, -⟩ | ⟨-, hc, -⟩⟩ :=
      (Backed.volume t).openFile_cases path .reading
    · rw [h]
      exact .refl _
    · rw [h]
      exact .refl _
    · cases hw
    · cases hc
  constructor
  case pause =>
    intro l v s w h hslow
    rw [h.2.1.quick] at hslow
    cases hslow
  case outbox => exact fun r h => ⟨h.1, h.2.1.post r, h.2.2⟩
  case held => exact fun b h => h
  case openFile =>
    intro v s w path h
    have hsame := hread w.store path
    split <;> rename_i ho
    all_goals
      rw [ho] at hsame
      exact hstep h hsame
  case closeFile =>
    exact fun h => hstep h ((Backed.closeFile _ _).keeps (Volume.closeFile_same _ _))
  case read =>
    intro v s w f n h
    obtain ⟨m, -, hpass⟩ := Backed.read w.store f n
    exact hstep h (hpass.keeps (Volume.read_same _ _ m))
  case openDir =>
    intro v s w path h
    have hsame := Backed.openDir_same w.store path
    split <;> rename_i ho
    all_goals
      rw [ho] at hsame
      exact hstep h hsame
  case readDir => exact fun h => hstep h ((Backed.readDir _ _).keeps (Volume.readDir_same _ _))
  case closeDir => exact fun h => hstep h ((Backed.closeDir _ _).keeps (Volume.closeDir_same _ _))
  case usedBlocks =>
    intro v s w h
    refine hstep h ((Backed.usedBlocks _).keeps ?_)
    rw [Volume.usedBlocks_tree]
    exact .refl _

/-- The command sent its replies, and changed nothing if its last status is that of one undone. -/
def Atomic (c : Command) (s : Serving chunk φ ε) (d : Device size σ φ) :
    Device size σ φ → Except CommandError Reply × Serving chunk φ ε → Device size σ φ → Prop :=
  fun _ x w => x.2.outbox.Prompt ∧
    (c.undone (finalReply x.1).status = true → x.2.endpoint = s.endpoint ∧ d.Intact w)

section

variable {s : Serving chunk φ ε} {d : Device size σ φ}

/-- A command that only reads changes nothing, whatever comes of it. -/
theorem browse_atomic {c : Command} {h : Handler size chunk σ φ ε Reply} (ho : s.outbox.Prompt)
    (hd : d.held = false) (hbrowse : Keeps R never (Browsing s.endpoint d .none) h)
    (hunheld : Keeps R anyhow Unheld h) :
    (on h s d).Meets R never (Atomic c s d) d := by
  have hbrowsed := hbrowse d s d ⟨rfl, ho, .refl d⟩
  have hunheld := hunheld d s d hd
  refine ((hbrowsed.and hunheld).mono fun _ _ _ h => h.1).imp fun v x w hx => ?_
  have hkept : (Browsing s.endpoint d .none : Assertion size chunk σ φ ε) v x.2 w := by
    obtain ⟨_ | _, _⟩ := x <;> exact hx.1
  have hheld : w.held = d.held := by
    rw [hd]
    obtain ⟨_ | _, _⟩ := x <;> exact hx.2
  refine ⟨hkept.2.1, fun _ => ⟨hkept.1, ?_⟩⟩
  have hsame : ({ w with held := d.held } : Device size σ φ) = w := by rw [← hheld]
  rw [← hsame]
  exact hkept.2.2

theorem rm_atomic (ho : s.outbox.Prompt) (payload : Bytes) :
    (on (rm payload) s d).Meets R never (Atomic .rm s d) d := by
  rw [on_rm]
  split
  · exact ⟨ho, fun _ => ⟨rfl, .refl d⟩⟩
  rename_i path _
  have hpass := Backed.remove d.store path
  split
  · rename_i h
    rw [h] at hpass
    exact ⟨ho, fun _ => ⟨rfl, .failed (c := .remove path) hpass rfl rfl⟩⟩
  · exact ⟨ho, nofun⟩

theorem mkdir_atomic (ho : s.outbox.Prompt) (payload : Bytes) :
    (on (mkdir payload) s d).Meets R never (Atomic .mkdir s d) d := by
  rw [on_mkdir]
  split
  · exact ⟨ho, fun _ => ⟨rfl, .refl d⟩⟩
  rename_i path _
  have hpass := Backed.mkdir d.store path
  split
  · rename_i h
    rw [h] at hpass
    exact ⟨ho, fun _ => ⟨rfl, .failed (c := .mkdir path) hpass rfl rfl⟩⟩
  · exact ⟨ho, nofun⟩

/-- The directory is entered only after the last call of the store. -/
theorem cd_atomic (ho : s.outbox.Prompt) (payload : Bytes) :
    (on (cd payload) s d).Meets R never (Atomic .cd s d) d := by
  rw [on_cd]
  split
  · exact ⟨ho, fun _ => ⟨rfl, .refl d⟩⟩
  rename_i target _
  have hintact := (Device.Intact.refl d).step (Backed.openDir_same d.store target)
  rw [on_enter]
  split
  · rename_i h
    rw [h] at hintact
    exact ⟨ho, fun _ => ⟨rfl, hintact⟩⟩
  rename_i dir t h
  rw [h] at hintact
  have hclose := hintact.step ((Backed.closeDir t dir).keeps (Volume.closeDir_same _ _))
  split
  · rename_i hc
    rw [hc] at hclose
    exact ⟨ho, fun _ => ⟨rfl, hclose⟩⟩
  · exact ⟨ho, nofun⟩

/-- While an upload is open another one is refused before the store is called. -/
theorem openFile_atomic (ho : s.outbox.Prompt) (payload : Bytes) :
    (on (openFile payload) s d).Meets R never (Atomic .openFile s d) d := by
  rw [on_openFile]
  split
  · exact ⟨ho, fun _ => ⟨rfl, .refl d⟩⟩
  rename_i path _
  have hpass := Backed.openFile d.store path .appending
  split
  · exact ⟨ho, fun _ => ⟨rfl, .refl d⟩⟩
  split
  · rename_i h
    rw [h] at hpass
    exact ⟨ho, fun _ => ⟨rfl, .failed (c := .openFile path .appending) hpass rfl rfl⟩⟩
  · exact ⟨ho, nofun⟩

private theorem writeFile_atomic (ho : s.outbox.Prompt) (id : UInt32) (payload : Bytes) :
    (on (writeFile id payload) s d).Meets R never (Atomic .writeFile s d) d := by
  rw [on_writeFile]
  split
  · exact ⟨ho, nofun⟩
  split
  · exact ⟨ho, fun _ => ⟨rfl, .refl d⟩⟩
  rename_i w hw
  obtain ⟨x, hx, he⟩ | hstorage :=
    w.write_error d.store id payload s.endpoint.config.enforceSequence
  · rw [he]
    dsimp only
    rw [hx]
    refine ⟨ho, fun _ => ⟨?_, .refl d⟩⟩
    show { s.endpoint with upload := some w } = s.endpoint
    rw [← hw]
  · split
    · exact ⟨ho, nofun⟩
    · rename_i x w' t he
      rw [he] at hstorage
      have hx : x.isStorage = true := hstorage x rfl
      rw [if_pos hx]
      refine ⟨ho, fun hu => ?_⟩
      rw [finalReply, Reply.ofStatus, CommandError.undone_of_storage hx] at hu
      cases hu

private theorem execute_atomic {p : Packet} (hc : p.command.tentative = true) (ho : s.outbox.Prompt)
    (hd : d.held = false) :
    (on (execute p) s d).Meets (Device.Resumes fun _ => True) never (Atomic p.command s d) d := by
  have hbrowsing := browsing_reading (R := Device.Resumes fun _ => True) (ε := ε) s.endpoint d
  unfold execute
  cases hcommand : p.command with
  | ls => exact browse_atomic ho hd hbrowsing.ls ls_unheld
  | pwd => exact browse_atomic ho hd hbrowsing.pwd free_unheld.pwd
  | cat => exact browse_atomic ho hd (hbrowsing.cat _) (cat_unheld _)
  | flashRemaining => exact browse_atomic ho hd hbrowsing.flashRemaining free_unheld.flashRemaining
  | cd => exact cd_atomic ho _
  | rm => exact rm_atomic ho _
  | mkdir => exact mkdir_atomic ho _
  | openFile => exact openFile_atomic ho _
  | writeFile => exact writeFile_atomic ho _ _
  | _ => simp [Command.tentative, hcommand] at hc

end

end Handler

namespace Scene

/-- Failed commands are atomic. Whatever went on before, and whatever the store refuses on the way,
each of these commands is answered at once; and if its last status says that it failed (of a write,
that it was out of sequence or that nothing is open), then the endpoint is as it was, with its
directory, its upload, its cursor and its clock, and so is the device, with its player, its files
and what is mounted, all but the books that the volume keeps on reads. -/
theorem failed_commands_change_nothing {config : Config} {timing : Timing} {store : σ}
    {as : List (Action σ ε)} {e : Endpoint chunk φ} {bytes : Bytes} {p : Packet}
    (hfree : ((initial config timing store : Scene size chunk σ φ ε).after as).hand = .free e)
    (hp : Packet.decode bytes = .ok p) (hc : p.command.tentative = true) :
    let s := (initial config timing store : Scene size chunk σ φ ε).after as
    ∃ status replies s',
      s.act (.request (.frame .instant bytes)) = (.answered (.served (.ok status) replies), s') ∧
      (p.command.undone status = true → s'.hand = s.hand ∧ s.device.Intact s'.device) := by
  intro s
  have hheld : s.device.held = false := unheld hfree
  have hprompt : (Outbox.empty .instant : Outbox ε).Prompt := ⟨rfl, rfl⟩
  have hexecute :=
    Handler.execute_atomic (s := ⟨e, .empty .instant⟩) (d := s.device) hc hprompt hheld
  obtain ⟨⟨x, t⟩, w, hrun, hposted, hatomic⟩ := hexecute.done
  have hconclude := Conduct.on_conclude_quick hposted.unbroken hposted.quick w x
  rw [(hposted.post (finalReply x)).unbroken] at hconclude
  rw [act_request hfree, Request.routine_frame, Conduct.on_serve _ _ hp, hrun, Run.done_bind,
    hconclude]
  refine ⟨(finalReply x).status, _, _, rfl, fun hundone => ?_⟩
  obtain ⟨he, hintact⟩ := hatomic hundone
  constructor
  · show Hand.free t.endpoint = s.hand
    rw [he, hfree]
  · exact hintact

/-- Amid an animation and an upload with a byte pending, the last call of a change of directory
fails. -/
theorem failed_cd_changes_nothing :
    let send (command : Command) (payload : Bytes) : Action (Disturbed Mishap Volume) Unit :=
      .request (.frame .instant (Packet.frame ⟨command, 1, payload⟩))
    let volume := ((Volume.fresh 1 16).put [[97]] (.file [7, 8])).put [[100]] .dir
    let first : Scene 1 2 (Disturbed Mishap Volume) FileHandle Unit :=
      initial {} ⟨1, 1⟩ ⟨{}, volume⟩
    let s := first.after [send .openFile [98], send .writeFile [5], .request (.start [97]),
      .aside (.alter fun d => { d with disturbance := { fault := some ⟨.closeDir, 0, .io⟩ } })]
    s.device.playback.playing = true ∧
      ∃ s', s.act (send .cd [100]) =
        (.answered (.served (.ok .invalidCommand) [.ofStatus .invalidCommand]), s') ∧
        s'.hand = s.hand ∧ s.device.Intact s'.device := by
  intro send volume first s
  have hplaying : s.device.playback.playing = true := by decide +kernel
  let e : Endpoint 2 FileHandle :=
    { (Endpoint.initial {} : Endpoint 2 FileHandle) with
      upload := some ⟨⟨[[98]], 0, .appending, 0⟩, ⟨[5]⟩, some 1⟩ }
  have hfree : s.hand = .free e := hand_of_endpoint? (by decide +kernel)
  have hevent : (s.act (send .cd [100])).1 =
      .answered (.served (.ok .invalidCommand) [.ofStatus .invalidCommand]) := by decide +kernel
  have hdecode : Packet.decode (Packet.frame ⟨.cd, 1, [100]⟩) = .ok ⟨.cd, 1, [100]⟩ := rfl
  obtain ⟨status, replies, s', hact, hundone⟩ := failed_commands_change_nothing hfree hdecode rfl
  rw [hact] at hevent
  have hserved := Answer.served.inj (Event.answered.inj hevent)
  obtain rfl : status = .invalidCommand := Except.ok.inj hserved.1
  obtain rfl := hserved.2
  exact ⟨hplaying, s', hact, hundone rfl⟩

end Scene

end PanelLink
