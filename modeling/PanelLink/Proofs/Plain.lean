import PanelLink.Endpoint.Dispatch
import PanelLink.Proofs.Triple

/-!
The commands that leave the animation and the upload alone. An assertion that is kept by their calls
of the store, their pauses and their changes of the directory and the clock is kept by each of them.
-/
namespace PanelLink

/-- The handle that a command has in hand, if any. -/
inductive CommandHandle (φ δ : Type) where
  | none
  | file (f : φ)
  | dir (h : δ)

variable {size chunk : Nat} {σ φ δ ε α : Type} [FileStore σ φ δ]
variable {R T : Pause → Device size σ φ → Device size σ φ → Prop}

/-- `J` is kept while replies are sent. -/
structure KeptBySending (R T : Pause → Device size σ φ → Device size σ φ → Prop)
    (J : Assertion size chunk σ φ ε) : Prop where
  pause {v s d} : J v s d → s.outbox.transport.slow = true →
    T .delivery v d ∧ ∀ w, R .delivery d w → J w s w
  outbox {v s d} (r : Reply) : J v s d → J v { s with outbox := (s.outbox.post r).2 } d

namespace KeptBySending

variable {J : Assertion size chunk σ φ ε}

theorem finish (hJ : KeptBySending R T J) (reply : Reply) :
    Conduct.Triple R T J (Conduct.finish reply) fun _ => J := by
  unfold Conduct.finish
  refine .bind (.post (Q := fun _ => J) (fun _ _ _ h => hJ.pause h) fun _ _ _ _ h =>
    hJ.outbox reply h) fun _ => ?_
  refine .bind (.get (Q := fun _ => J) fun _ _ _ h => h) fun s => ?_
  split
  · exact .skip
  · exact .skip

theorem conclude (hJ : KeptBySending R T J) (result : Except CommandError Reply) :
    Conduct.Triple R T J (Conduct.conclude result) fun _ => J := by
  unfold Conduct.conclude
  refine .bind (.get (Q := fun _ => J) fun _ _ _ h => h) fun s => ?_
  split
  · exact .skip
  · exact hJ.finish _

theorem serve (hJ : KeptBySending R T J) {P : Assertion size chunk σ φ ε} (frame : Bytes)
    (bad : ∀ v s d, P v s d → J v s d)
    (good : ∀ p, Packet.decode frame = .ok p →
      Handler.Triple R T P (Handler.execute p) (fun _ => J) J) :
    Conduct.Triple R T P (Conduct.serve frame) fun _ => J := by
  unfold Conduct.serve
  split
  · exact (hJ.finish _).weaken bad fun _ _ _ _ h => h
  · rename_i p hd
    have hgood : Conduct.Triple R T P (Handler.execute p).run fun _ => J := by
      refine Conduct.Triple.weaken (good p hd) (fun _ _ _ h => h) ?_
      rintro (e | r) v s d h
      · exact h
      · exact h
    exact .bind hgood fun r => hJ.conclude r

end KeptBySending

/-- `J` is kept while files and directories are read; it knows the handle in hand. -/
structure KeptByReading (R T : Pause → Device size σ φ → Device size σ φ → Prop)
    (J : CommandHandle φ δ → Assertion size chunk σ φ ε) : Prop where
  pause {l v s d} : J l v s d → s.outbox.transport.slow = true →
    T .delivery v d ∧ ∀ w, R .delivery d w → J l w s w
  outbox {l v s d} (r : Reply) : J l v s d → J l v { s with outbox := (s.outbox.post r).2 } d
  held {l v s d} (b : Bool) : J l v s d → J l v s { d with held := b }
  openFile {v s d} (path : Bytes) :
    J .none v s d → match FileStore.openFile d.store path .reading with
      | (.ok f, t) => J (.file f) v s { d with store := t }
      | (.error _, t) => J .none v s { d with store := t }
  closeFile {v s d f} : J (.file f) v s d →
    J .none v s { d with store := (FileStore.closeFile d.store f).2 }
  read {v s d f} (n : Nat) : J (.file f) v s d →
    J (.file (FileStore.read d.store f n).2.1) v s
      { d with store := (FileStore.read d.store f n).2.2 }
  openDir {v s d} (path : Bytes) :
    J .none v s d → match FileStore.openDir d.store path with
      | (.ok h, t) => J (.dir h) v s { d with store := t }
      | (.error _, t) => J .none v s { d with store := t }
  readDir {v s d h} : J (.dir h) v s d →
    J (.dir (FileStore.readDir d.store h).2.1) v s
      { d with store := (FileStore.readDir d.store h).2.2 }
  closeDir {v s d h} : J (.dir h) v s d →
    J .none v s { d with store := (FileStore.closeDir d.store h).2 }
  usedBlocks {v s d} : J .none v s d →
    J .none v s { d with store := (FileStore.usedBlocks d.store).2 }

/-- `J` is kept by everything that a `plain` command does. -/
structure KeptByPlain (R T : Pause → Device size σ φ → Device size σ φ → Prop)
    (J : CommandHandle φ δ → Assertion size chunk σ φ ε) : Prop extends KeptByReading R T J where
  cwd {v s d} (c : Bytes) : J .none v s d →
    J .none v { s with endpoint := { s.endpoint with cwd := c } } d
  clock {v s d} (c : Option TimeOfDay) : J .none v s d →
    J .none v { s with endpoint := { s.endpoint with clock := c } } d
  create {v s d} (path : Bytes) :
    J .none v s d → match FileStore.openFile d.store path .creating with
      | (.ok f, t) => J (.file f) v s { d with store := t }
      | (.error _, t) => J .none v s { d with store := t }
  mkdir {v s d} (path : Bytes) : J .none v s d →
    J .none v s { d with store := (FileStore.mkdir d.store path).2 }

namespace Command

/-- The commands that leave the animation, the upload and the names in the store alone, apart from
new ones. -/
def plain : Command → Bool
  | ls | cd | pwd | mkdir | touch | cat | flashRemaining | setTime => true
  | _ => false

/-- The commands that wait for nothing but their last reply and leave the animation alone. -/
def brief : Command → Bool
  | ls | cat | format | chooseImage | writeDisplay => false
  | _ => true

end Command

namespace KeptByReading

open Handler

variable {J : CommandHandle φ δ → Assertion size chunk σ φ ε}

theorem send (hJ : KeptByReading R T J) {l : CommandHandle φ δ} (r : Reply) :
    Keeps R T (J l) (Handler.send r) :=
  Triple.send (fun _ _ _ h => hJ.pause h) fun _ _ _ h => hJ.outbox r h

theorem path (_ : KeptByReading R T J) (payload : Bytes) :
    Keeps R T (J .none) (pathArgument payload) :=
  Triple.pathArgument (fun _ _ _ _ h _ => h) fun _ _ _ h => h

theorem openFile_triple (hJ : KeptByReading R T J) (path : Bytes) :
    Triple R T (J .none) (Handler.callStore (FileStore.openFile · path .reading))
      (fun f => J (.file f)) (J .none) := by
  refine Triple.callStore fun v s d h => ?_
  have ho := hJ.openFile path h
  split at ho
  · rename_i hr
    simpa only [hr] using ho
  · rename_i hr
    simpa only [hr] using ho

theorem openDir_triple (hJ : KeptByReading R T J) (path : Bytes) :
    Triple R T (J .none) (Handler.callStore (FileStore.openDir · path))
      (fun h => J (.dir h)) (J .none) := by
  refine Triple.callStore fun v s d h => ?_
  have ho := hJ.openDir path h
  split at ho
  · rename_i hr
    simpa only [hr] using ho
  · rename_i hr
    simpa only [hr] using ho

theorem pwd (_ : KeptByReading R T J) :
    Keeps R T (J .none) Handler.pwd := by
  unfold Handler.pwd
  refine .bind (.endpoint (Q := fun _ => J .none) fun _ _ _ h => h) fun e => ?_
  exact .settle

theorem flashRemaining (hJ : KeptByReading R T J) :
    Keeps R T (J .none) Handler.flashRemaining := by
  unfold Handler.flashRemaining
  refine .bind (.call fun _ _ _ h => hJ.usedBlocks h) fun used => ?_
  refine .bind
    (.always (.onStore (Q := fun _ => J .none) fun _ _ _ h => h)) fun (count, blocks) => ?_
  refine .bind .settle fun r => ?_
  exact .settle

/-! ## Listing -/

theorem spill (hJ : KeptByReading R T J) {l : CommandHandle φ δ} (bytes : Bytes) (reply : Reply) :
    Keeps R T (J l) (Handler.spill bytes reply) := by
  induction bytes generalizing reply with
  | nil => exact .skip
  | cons b bs ih =>
    unfold Handler.spill
    split
    · exact ih _
    · refine .bind (hJ.send reply) fun _ => ?_
      refine .bind .settle fun r => ?_
      exact ih r

theorem appendEntry (hJ : KeptByReading R T J) {l : CommandHandle φ δ} (mode : ListingMode)
    (e : DirEntry)
    (reply : Reply) :
    Keeps R T (J l) (Handler.appendEntry mode e reply) := by
  have hspill (reply : Reply) :
      Keeps R T (J l) (some <$> Handler.spill (entryLine e) reply) := by
    rw [map_eq_pure_bind]
    exact .bind (hJ.spill _ _) fun _ => .skip
  unfold Handler.appendEntry
  dsimp only
  split
  · exact hspill reply
  · split
    · exact .skip
    · split
      · exact hspill reply
      · exact .bind (hJ.send reply) fun _ => hspill _

theorem appendEntries (hJ : KeptByReading R T J) (mode : ListingMode) (n : Nat) (dir : δ)
    (reply : Reply) :
    Conduct.Triple R T (J (.dir dir)) (Handler.appendEntries mode n dir reply)
      fun x => J (.dir x.2) := by
  induction n generalizing dir reply with
  | zero => exact .pure fun _ _ _ h => h
  | succ n ih =>
    unfold Handler.appendEntries
    refine .bind (.onStore (Q := fun x => J (.dir x.2)) fun _ _ _ h => hJ.readDir h)
      fun (next, dir) => ?_
    dsimp only
    split
    · exact .pure fun _ _ _ h => h
    · exact .pure fun _ _ _ h => h
    · split
      · exact ih dir reply
      · rename_i e _
        refine .bind (hJ.appendEntry (l := .dir dir) mode e reply) fun r => ?_
        split
        · exact .pure fun _ _ _ h => h
        · exact .pure fun _ _ _ h => h
        · exact ih dir _

theorem ls (hJ : KeptByReading R T J) :
    Keeps R T (J .none) Handler.ls := by
  unfold Handler.ls
  refine .bind (.endpoint (Q := fun _ => J .none) fun _ _ _ h => h) fun e => ?_
  refine .bind (hJ.openDir_triple _) fun dir => ?_
  refine .bind (Q := fun _ => J .none) (.always ?_) fun (listed, closed) => ?_
  · refine .bind (.setHeld (Q := fun _ => J (.dir dir)) fun _ _ _ h => hJ.held true h)
      fun _ => ?_
    refine .bind (.onStore (Q := fun _ => J (.dir dir)) fun _ _ _ h => h) fun bound => ?_
    refine .bind (hJ.appendEntries _ _ _ _) fun (listed, dir) => ?_
    refine .bind (.onStore (Q := fun _ => J .none) fun _ _ _ h => hJ.closeDir h) fun closed => ?_
    refine .bind (.setHeld (Q := fun _ => J .none) fun _ _ _ h => hJ.held false h)
      fun _ => ?_
    exact .skip
  · refine .bind .settle fun reply => ?_
    refine .bind .settle fun _ => ?_
    split
    · exact .bind (hJ.send reply) fun _ => .skip
    · exact .skip

/-! ## Sending a file -/

theorem sendPieces (hJ : KeptByReading R T J) (n : Nat) (f : φ) :
    Conduct.Triple R T (J (.file f)) (Handler.sendPieces n f) fun x => J (.file x.2) := by
  induction n generalizing f with
  | zero => exact .pure fun _ _ _ h => h
  | succ n ih =>
    unfold Handler.sendPieces
    refine .bind (.onStore (Q := fun x => J (.file x.2)) fun _ _ _ h => hJ.read _ h)
      fun (bytes, f) => ?_
    dsimp only
    split
    · exact .pure fun _ _ _ h => h
    · exact .pure fun _ _ _ h => h
    · split
      · exact .pure fun _ _ _ h => h
      · refine .bind (hJ.send (l := .file f) _) fun r => ?_
        split
        · exact .pure fun _ _ _ h => h
        · exact ih f

theorem cat (hJ : KeptByReading R T J) (payload : Bytes) :
    Keeps R T (J .none) (Handler.cat payload) := by
  unfold Handler.cat
  refine .bind (hJ.path payload) fun path => ?_
  refine .bind (hJ.openFile_triple path) fun f => ?_
  refine .bind (Q := fun _ => J .none) (.always ?_) fun (streamed, closed) => ?_
  · refine .bind (.setHeld (Q := fun _ => J (.file f)) fun _ _ _ h => hJ.held true h)
      fun _ => ?_
    refine .bind (.onStore (Q := fun _ => J (.file f)) fun _ _ _ h => h) fun bound => ?_
    refine .bind (hJ.sendPieces _ _) fun (streamed, f) => ?_
    refine .bind (.onStore (Q := fun _ => J .none) fun _ _ _ h => hJ.closeFile h) fun closed => ?_
    refine .bind (.setHeld (Q := fun _ => J .none) fun _ _ _ h => hJ.held false h)
      fun _ => ?_
    exact .skip
  · refine .bind .settle fun _ => ?_
    refine .bind .settle fun _ => ?_
    exact .skip

/-! ## A whole command -/

theorem sending (hJ : KeptByReading R T J) (l : CommandHandle φ δ) : KeptBySending R T (J l) :=
  ⟨hJ.pause, hJ.outbox⟩

theorem serve (hJ : KeptByReading R T J) {P : Assertion size chunk σ φ ε} (frame : Bytes)
    (bad : ∀ v s d, P v s d → J .none v s d)
    (good : ∀ p, Packet.decode frame = .ok p →
      Triple R T P (Handler.execute p) (fun _ => J .none) (J .none)) :
    Conduct.Triple R T P (Conduct.serve frame) fun _ => J .none :=
  (hJ.sending .none).serve frame bad good

end KeptByReading

namespace KeptByPlain

open Handler

variable {J : CommandHandle φ δ → Assertion size chunk σ φ ε}

theorem create_triple (hJ : KeptByPlain R T J) (path : Bytes) :
    Triple R T (J .none) (Handler.callStore (FileStore.openFile · path .creating))
      (fun f => J (.file f)) (J .none) := by
  refine Triple.callStore fun v s d h => ?_
  have ho := hJ.create path h
  split at ho
  · rename_i hr
    simpa only [hr] using ho
  · rename_i hr
    simpa only [hr] using ho

theorem setTime (hJ : KeptByPlain R T J) (payload : Bytes) :
    Keeps R T (J .none) (Handler.setTime payload) := by
  unfold Handler.setTime
  split
  · rename_i hour minute second _
    split
    · exact .bind (Q := fun _ => J .none) .fail fun _ =>
        .bind (.modifyEndpoint fun _ _ _ h => hJ.clock _ h) fun _ => .skip
    · exact .bind (.modifyEndpoint fun _ _ _ h => hJ.clock _ h) fun _ => .skip
  · exact .fail

theorem mkdir_triple (hJ : KeptByPlain R T J) (payload : Bytes) :
    Keeps R T (J .none) (Handler.mkdir payload) := by
  unfold Handler.mkdir
  refine .bind (hJ.path payload) fun path => ?_
  refine .bind (.call fun _ _ _ h => hJ.mkdir path h) fun _ => ?_
  exact .skip

theorem touch (hJ : KeptByPlain R T J) (payload : Bytes) :
    Keeps R T (J .none) (Handler.touch payload) := by
  unfold Handler.touch
  refine .bind (hJ.path payload) fun path => ?_
  refine .bind (hJ.create_triple path) fun f => ?_
  refine .bind (.call fun _ _ _ h => hJ.closeFile h) fun _ => ?_
  exact .skip

theorem cd (hJ : KeptByPlain R T J) (payload : Bytes) :
    Keeps R T (J .none) (Handler.cd payload) := by
  have henter (target : Bytes) :
      Keeps R T (J .none) (enter target) := by
    unfold enter
    refine .bind (hJ.openDir_triple target) fun dir => ?_
    refine .bind (.call fun _ _ _ h => hJ.closeDir h) fun _ => ?_
    exact .bind (.modifyEndpoint fun _ _ _ h => hJ.cwd target h) fun _ => .skip
  intro v s d h
  rw [Conduct.on_run, on_cd]
  cases s.endpoint.directoryOf payload with
  | error x => exact h
  | ok target => exact henter target v s d h

theorem plain (hJ : KeptByPlain R T J) (p : Packet) (hp : p.command.plain = true) :
    Keeps R T (J .none) (Handler.execute p) := by
  unfold Handler.execute
  cases hc : p.command with
  | ls => exact hJ.ls
  | cd => exact hJ.cd _
  | pwd => exact hJ.pwd
  | mkdir => exact hJ.mkdir_triple _
  | touch => exact hJ.touch _
  | cat => exact hJ.cat _
  | flashRemaining => exact hJ.flashRemaining
  | setTime => exact hJ.setTime _
  | _ => simp [Command.plain, hc] at hp

end KeptByPlain

/-- `J` does not depend on the store, nor on what is served but for the cursor. -/
def Free (J : Assertion size chunk σ φ ε) : Prop :=
  ∀ v s d s' t, s'.endpoint.cursor = s.endpoint.cursor → J v s d → J v s' { d with store := t }

/-! Commands that work on the store and on what is kept between packets, and on nothing else. -/
namespace Free

open Handler

variable {J : Assertion size chunk σ φ ε}

theorem call (hJ : Free J) (f : σ → Except StorageError α × σ) :
    Keeps R T J (Handler.callStore f) :=
  Triple.call fun v s d h => hJ v s d s _ rfl h

theorem step (hJ : Free J) (f : σ → α × σ) :
    Keeps R T J (Handler.always (Conduct.onStore f)) :=
  .always (.onStore fun v s d h => hJ v s d s _ rfl h)

theorem modify (hJ : Free J) {f : Endpoint chunk φ → Endpoint chunk φ}
    (hf : ∀ e, (f e).cursor = e.cursor) : Keeps R T J (Handler.modifyEndpoint f) :=
  .modifyEndpoint fun v s d h => hJ v s d _ d.store (hf s.endpoint) h

theorem endpoint (_ : Free J) : Keeps R T J Handler.endpoint :=
  .endpoint fun _ _ _ h => h

theorem path (_ : Free J) (payload : Bytes) : Keeps R T J (pathArgument payload) :=
  .pathArgument (fun _ _ _ _ h _ => h) fun _ _ _ h => h

theorem pwd (hJ : Free J) : Keeps R T J Handler.pwd :=
  .bind hJ.endpoint fun _ => .settle

theorem setTime (hJ : Free J) (payload : Bytes) : Keeps R T J (Handler.setTime payload) := by
  intro v s d h
  rw [Conduct.on_run, on_setTime]
  split
  · split
    · exact h
    · exact hJ v s d _ d.store rfl h
  · exact h

theorem cd (hJ : Free J) (payload : Bytes) : Keeps R T J (Handler.cd payload) := by
  have henter (target : Bytes) : Keeps R T J (enter target) :=
    .bind (hJ.call _) fun _ => .bind (hJ.call _) fun _ => .bind (hJ.modify fun _ => rfl) fun _ =>
      .skip
  intro v s d h
  rw [Conduct.on_run, on_cd]
  split
  · exact h
  · exact henter _ v s d h

theorem flashRemaining (hJ : Free J) : Keeps R T J Handler.flashRemaining :=
  .bind (hJ.call _) fun _ => .bind (hJ.step _) fun _ => .bind .settle fun _ => .settle

theorem mkdir (hJ : Free J) (payload : Bytes) : Keeps R T J (Handler.mkdir payload) :=
  .bind (hJ.path payload) fun _ => .bind (hJ.call _) fun _ => .skip

theorem touch (hJ : Free J) (payload : Bytes) : Keeps R T J (Handler.touch payload) :=
  .bind (hJ.path payload) fun _ => .bind (hJ.call _) fun _ => .bind (hJ.call _) fun _ => .skip

theorem rm (hJ : Free J) (payload : Bytes) : Keeps R T J (Handler.rm payload) :=
  .bind (hJ.path payload) fun _ => .bind (hJ.call _) fun _ => .skip

theorem openFile (hJ : Free J) (payload : Bytes) : Keeps R T J (Handler.openFile payload) := by
  unfold Handler.openFile
  refine .bind (hJ.path payload) fun path => ?_
  refine .bind hJ.endpoint fun e => ?_
  have hopen : Keeps R T J (do
      let f ← Handler.callStore (FileStore.openFile · path .appending)
      Handler.modifyEndpoint fun e => { e with upload := some (.ofFile f) }
      return Handler.done : Handler size chunk σ φ ε Reply) :=
    .bind (hJ.call _) fun f => .bind (hJ.modify fun _ => rfl) fun _ => .skip
  split
  · exact .bind (Q := fun _ => J) .fail fun _ => hopen
  · exact hopen

theorem writeFile (hJ : Free J) (id : UInt32) (payload : Bytes) :
    Keeps R T J (Handler.writeFile id payload) := by
  intro v s d h
  rw [Conduct.on_run, on_writeFile]
  split
  · exact h
  split
  · exact h
  split
  · exact hJ v s d _ _ rfl h
  · split
    · exact hJ v s d _ _ rfl h
    · exact hJ v s d _ _ rfl h

theorem closeFile (hJ : Free J) : Keeps R T J Handler.closeFile := by
  unfold Handler.closeFile
  refine .bind hJ.endpoint fun e => ?_
  split
  · exact .fail
  · exact .bind (hJ.modify fun _ => rfl) fun _ => .bind (hJ.step _) fun _ => .bind .settle fun _ =>
      .skip

theorem wipe (hJ : Free J) (reset : ∀ v s d c, J v s d →
      J v { s with endpoint := { s.endpoint with cwd := c, cursor := 0 } } d) :
    Keeps R T J Handler.wipe := by
  have habandon : Keeps R T J Handler.abandonUpload := by
    unfold Handler.abandonUpload
    refine .bind hJ.endpoint fun e => ?_
    split
    · exact .skip
    · exact .bind (hJ.modify fun _ => rfl) fun _ => hJ.step _
  unfold Handler.wipe
  refine .bind habandon fun _ => ?_
  refine .bind (Q := fun _ => J) (.modifyEndpoint fun v s d h => reset v s d _ h) fun _ => ?_
  exact .bind (hJ.call _) fun _ => .bind (hJ.call _) fun _ => .skip

theorem brief (hJ : Free J) (p : Packet) (hp : p.command.brief = true) :
    Keeps R T J (Handler.execute p) := by
  unfold Handler.execute
  cases hc : p.command with
  | cd => exact hJ.cd _
  | pwd => exact hJ.pwd
  | rm => exact hJ.rm _
  | mkdir => exact hJ.mkdir _
  | touch => exact hJ.touch _
  | openFile => exact hJ.openFile _
  | writeFile => exact hJ.writeFile _ _
  | closeFile => exact hJ.closeFile
  | flashRemaining => exact hJ.flashRemaining
  | setTime => exact hJ.setTime _
  | _ => simp [Command.brief, hc] at hp

end Free

end PanelLink
