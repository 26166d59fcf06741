import PanelLink.Proofs.Tandem

/-!
Commands in unison. On devices that correspond a command gives the same replies and leaves devices
that correspond, if each of its steps keeps the relation of the two screens.
-/
namespace PanelLink

open Handler

variable {size chunk : Nat} {σ φ δ ε α β : Type}

def Request.Ordinary : Request ε → Prop
  | frame _ _ | stop => True
  | start _ | showStill _ | loadConfig => False

namespace Likeness

variable (L : Likeness σ φ δ)

/-- The endpoints agree but for the handle of the upload. -/
structure Peers (e e' : Endpoint chunk φ) : Prop where
  config : e.config = e'.config
  cwd : e.cwd = e'.cwd
  upload : Option.Rel L.Upload e.upload e'.upload
  cursor : e.cursor = e'.cursor
  clock : e.clock = e'.clock

/-- A relation of two screens: of the devices when the present stretches began, of the cursor, and
of the devices now. -/
abbrev Screens (size : Nat) (σ φ : Type) :=
  Device size σ φ → Device size σ φ → Nat → Device size σ φ → Device size σ φ → Prop

/-- Stores, endpoints and screens correspond, and the same replies went out. -/
structure Bound (I : Screens size σ φ) (v v' : Device size σ φ) (s : Serving chunk φ ε)
    (d : Device size σ φ) (s' : Serving chunk φ ε) (d' : Device size σ φ) : Prop where
  store : L.store d.store d'.store
  peers : L.Peers s.endpoint s'.endpoint
  outbox : s.outbox = s'.outbox
  screens : I v v' s.endpoint.cursor d d'

structure Outcome (I : Screens size σ φ) (v v' : Device size σ φ)
    (x : Answer ε × Endpoint chunk φ) (d : Device size σ φ) (y : Answer ε × Endpoint chunk φ)
    (d' : Device size σ φ) : Prop where
  answer : x.1 = y.1
  peers : L.Peers x.2 y.2
  screens : I v v' x.2.cursor d d'
  store : L.store d.store d'.store

def Still (I : Screens size σ φ) : Screens size σ φ :=
  fun v v' n d d' => I v v' n d d' ∧ d.playback.playing = false ∧ d'.playback.playing = false

variable {L} {E T : Onward size σ φ} {I : Screens size σ φ}

theorem Peers.paths {e e' : Endpoint chunk φ} (h : L.Peers e e') (payload : Bytes) :
    e.pathOf payload = e'.pathOf payload ∧ e.directoryOf payload = e'.directoryOf payload := by
  have hmeaning (raw : Bytes) : e.meaning raw = e'.meaning raw := by
    unfold Endpoint.meaning
    rw [h.config, h.cwd]
  constructor
  · simp only [Endpoint.pathOf, hmeaning]
  · simp only [Endpoint.directoryOf, hmeaning]

theorem Upload.isSome_eq {w w' : Option (WriteSession chunk φ)} (h : Option.Rel L.Upload w w') :
    w.isSome = w'.isSome := by
  cases h with
  | some _ => rfl
  | none => rfl

theorem Bound.endpoint :
    Tandem E T (L.Bound I : Bond size chunk σ φ ε) L.Peers Handler.endpoint Handler.endpoint := by
  intro v v' s d s' d' h
  exact ⟨.ok h.peers, h⟩

theorem Bound.path (payload : Bytes) :
    Tandem E T (L.Bound I : Bond size chunk σ φ ε) Eq (pathArgument payload)
      (pathArgument payload) := by
  intro v v' s d s' d' h
  rw [Conduct.on_run, Conduct.on_run, on_pathArgument, on_pathArgument,
    (h.peers.paths payload).1]
  exact ⟨.of_eq rfl, h⟩

theorem Bound.pwd :
    Tandem E T (L.Bound I : Bond size chunk σ φ ε) Eq Handler.pwd Handler.pwd := by
  refine .bind Bound.endpoint ?_
  intro e e' he
  rw [he.cwd]
  exact .settle _ _

variable [FileStore σ φ δ]

variable (L) in
/-- `I` is kept by every step of a command, where the stores correspond. -/
structure KeepsScreens (E T : Onward size σ φ) (I : Screens size σ φ) : Prop where
  store {v v' n d d'} (s t : σ) : I v v' n d d' →
    I v v' n { d with store := s } { d' with store := t }
  held {v v' n d d'} (held : Bool) : I v v' n d d' →
    I v v' n { d with held := held } { d' with held := held }
  reset {v v' n d d'} : I v v' n d d' → I v v' 0 d d'
  playing {v v' n d d'} : I v v' n d d' → d.playback.playing = d'.playback.playing
  delivery {v v' n d d'} : I v v' n d d' → L.store d.store d'.store →
    T .delivery v v' d d' ∧ ∀ w w', E .delivery d d' w w' →
      I w w' n w w' ∧ L.store w.store w'.store
  stop {v v' n d d'} : I v v' n d d' → L.store d.store d'.store →
    (Device.stop d).Tandem E T
      (fun v v' a w b w' => a = b ∧ Still I v v' n w w' ∧ L.store w.store w'.store)
      v v' (Device.stop d')
  launch {v v' d d'} (path : Bytes) : Still I v v' 0 d d' → L.store d.store d'.store →
    (Device.launch path d).1 = (Device.launch path d').1 ∧
      I v v' 0 (Device.launch path d).2 (Device.launch path d').2 ∧
      L.store (Device.launch path d).2.store (Device.launch path d').2.store
  showFile {v v' d d'} (path : Bytes) : Still I v v' 0 d d' → L.store d.store d'.store →
    (Device.showFile path d).1 = (Device.showFile path d').1 ∧
      I v v' 0 (Device.showFile path d).2 (Device.showFile path d').2 ∧
      L.store (Device.showFile path d).2.store (Device.showFile path d').2.store
  writeRaw {v v' n d d'} (pixels : Bytes) : Still I v v' n d d' → L.store d.store d'.store →
    (Device.writeRaw n pixels d).1 = (Device.writeRaw n pixels d').1 ∧
      I v v' (Device.writeRaw n pixels d).1.2 (Device.writeRaw n pixels d).2
        (Device.writeRaw n pixels d').2 ∧
      L.store (Device.writeRaw n pixels d).2.store (Device.writeRaw n pixels d').2.store

end Likeness

namespace Likeness.KeepsScreens

variable [FileStore σ φ δ] {L : Likeness σ φ δ} {E T : Onward size σ φ} {I : Screens size σ φ}
  {R : α → β → Prop}

section

variable (hI : L.KeepsScreens E T I)
include hI

/-! ## The parts of a command -/

theorem step {f : σ → α × σ} {g : σ → β × σ}
    (hf : ∀ s t, L.store s t → L.Answers R (f s) (g t)) :
    Conduct.Tandem E T (L.Bound I : Bond size chunk σ φ ε) R (Conduct.onStore f)
      (Conduct.onStore g) := by
  intro v v' s d s' d' h
  obtain ⟨hr, hstore⟩ := hf _ _ h.store
  exact ⟨hr, hstore, h.peers, h.outbox, hI.store _ _ h.screens⟩

theorem call {f : σ → Except StorageError α × σ} {g : σ → Except StorageError β × σ}
    (hf : ∀ s t, L.store s t → L.Answers (Agree R) (f s) (g t)) :
    Tandem E T (L.Bound I : Bond size chunk σ φ ε) R (Handler.callStore f)
      (Handler.callStore g) := by
  refine Tandem.bind (.always (hI.step hf)) ?_
  intro x y hxy
  exact .ofExcept hxy

/-- A call that says no more than whether it succeeded. -/
theorem callEq {f g : σ → Except StorageError α × σ}
    (hf : ∀ s t, L.store s t → L.Answers Eq (f s) (g t)) :
    Tandem E T (L.Bound I : Bond size chunk σ φ ε) Eq (Handler.callStore f)
      (Handler.callStore g) := by
  refine hI.call ?_
  intro s t hst
  obtain ⟨hr, hstore⟩ := hf s t hst
  exact ⟨.of_eq hr, hstore⟩

theorem setHeld (held : Bool) :
    Conduct.Tandem E T (L.Bound I : Bond size chunk σ φ ε) Eq (Conduct.setHeld held)
      (Conduct.setHeld held) := by
  intro v v' s d s' d' h
  exact ⟨rfl, h.store, h.peers, h.outbox, hI.held held h.screens⟩

theorem modify {f g : Endpoint chunk φ → Endpoint chunk φ}
    (hf : ∀ e e', L.Peers e e' → L.Peers (f e) (g e'))
    (hcursor : ∀ e, (f e).cursor = e.cursor ∨ (f e).cursor = 0) :
    Tandem E T (L.Bound I : Bond size chunk σ φ ε) Eq (Handler.modifyEndpoint f)
      (Handler.modifyEndpoint g) := by
  intro v v' s d s' d' h
  refine ⟨.ok rfl, h.store, hf _ _ h.peers, h.outbox, ?_⟩
  show I v v' (f s.endpoint).cursor d d'
  obtain hsame | hzero := hcursor s.endpoint
  · rw [hsame]
    exact h.screens
  · rw [hzero]
    exact hI.reset h.screens

theorem post (r : Reply) :
    Conduct.Tandem E T (L.Bound I : Bond size chunk σ φ ε) Eq (Conduct.post r)
      (Conduct.post r) := by
  intro v v' s d s' d' h
  rw [Conduct.on_post, Conduct.on_post, h.outbox]
  split
  · obtain ⟨hT, hE⟩ := hI.delivery h.screens h.store
    refine ⟨rfl, hT, fun w w' hw => ?_⟩
    obtain ⟨hscreens, hstore⟩ := hE w w' hw
    exact ⟨rfl, hstore, h.peers, rfl, hscreens⟩
  · exact ⟨rfl, h.store, h.peers, rfl, h.screens⟩

theorem send (r : Reply) :
    Tandem E T (L.Bound I : Bond size chunk σ φ ε) Eq (Handler.send r) (Handler.send r) := by
  refine .andThen (.always (hI.post r)) ?_
  intro sent
  cases sent with
  | false => exact .throw _
  | true => exact .pure rfl

/-! ## Commands without a pause -/

theorem setTime (payload : Bytes) :
    Tandem E T (L.Bound I : Bond size chunk σ φ ε) Eq (Handler.setTime payload)
      (Handler.setTime payload) := by
  unfold Handler.setTime
  split
  · rename_i hour minute second _
    have hset : Tandem E T (L.Bound I : Bond size chunk σ φ ε) Eq
        (do modifyEndpoint fun e => { e with clock := some ⟨hour, minute, second⟩ }
            return Handler.done)
        (do modifyEndpoint fun e => { e with clock := some ⟨hour, minute, second⟩ }
            return Handler.done) := by
      refine .andThen (hI.modify ?_ fun _ => .inl rfl) fun _ => .pure rfl
      intro e e' he
      exact ⟨he.config, he.cwd, he.upload, he.cursor, rfl⟩
    split
    · exact .andThen (h := MonadExcept.throw _) (.throw _) fun _ => hset
    · exact hset
  · exact .throw _

theorem cd (hL : L.Lawful) (payload : Bytes) :
    Tandem E T (L.Bound I : Bond size chunk σ φ ε) Eq (Handler.cd payload)
      (Handler.cd payload) := by
  have henter (target : Bytes) : Tandem E T (L.Bound I : Bond size chunk σ φ ε) Eq
      (enter target) (enter target) := by
    refine .bind (hI.call fun _ _ => hL.openDir target) ?_
    intro dir dir' hdir
    refine .andThen (hI.callEq fun _ _ h => hL.closeDir h hdir) fun _ => ?_
    refine .andThen (hI.modify ?_ fun _ => .inl rfl) fun _ => .pure rfl
    intro e e' he
    exact ⟨he.config, rfl, he.upload, he.cursor, he.clock⟩
  intro v v' s d s' d' h
  rw [Conduct.on_run, Conduct.on_run, on_cd, on_cd, (h.peers.paths payload).2]
  cases s'.endpoint.directoryOf payload with
  | error x => exact ⟨.error _, h⟩
  | ok target => exact henter target v v' s d s' d' h

theorem rm (hL : L.Lawful) (payload : Bytes) :
    Tandem E T (L.Bound I : Bond size chunk σ φ ε) Eq (Handler.rm payload)
      (Handler.rm payload) := by
  refine .andThen (Bound.path payload) fun path => ?_
  exact .andThen (hI.callEq fun _ _ => hL.remove path) fun _ => .pure rfl

theorem mkdir (hL : L.Lawful) (payload : Bytes) :
    Tandem E T (L.Bound I : Bond size chunk σ φ ε) Eq (Handler.mkdir payload)
      (Handler.mkdir payload) := by
  refine .andThen (Bound.path payload) fun path => ?_
  exact .andThen (hI.callEq fun _ _ => hL.mkdir path) fun _ => .pure rfl

theorem touch (hL : L.Lawful) (payload : Bytes) :
    Tandem E T (L.Bound I : Bond size chunk σ φ ε) Eq (Handler.touch payload)
      (Handler.touch payload) := by
  refine .andThen (Bound.path payload) fun path => ?_
  refine .bind (hI.call fun _ _ => hL.openFile path .creating) ?_
  intro f g hf
  exact .andThen (hI.callEq fun _ _ h => hL.closeFile h hf) fun _ => .pure rfl

theorem flashRemaining (hL : L.Lawful) :
    Tandem E T (L.Bound I : Bond size chunk σ φ ε) Eq Handler.flashRemaining
      Handler.flashRemaining := by
  refine .andThen (hI.callEq fun _ _ => hL.usedBlocks) fun used => ?_
  refine .andThen (.always (hI.step ?_)) fun sizes => ?_
  · intro s t h
    refine ⟨?_, h⟩
    show (FileStore.blockCount s, FileStore.blockSize s) =
      (FileStore.blockCount t, FileStore.blockSize t)
    rw [hL.blockCount h, hL.blockSize h]
  · exact .andThen (.settle _ _) fun _ => .settle _ _

/-! ## Uploads -/

theorem openFile (hL : L.Lawful) (payload : Bytes) :
    Tandem E T (L.Bound I : Bond size chunk σ φ ε) Eq (Handler.openFile payload)
      (Handler.openFile payload) := by
  have hopen (path : Bytes) : Tandem E T (L.Bound I : Bond size chunk σ φ ε) Eq
      (do let f ← Handler.callStore (FileStore.openFile · path .appending)
          modifyEndpoint fun e => { e with upload := some (.ofFile f) }
          return Handler.done)
      (do let f ← Handler.callStore (FileStore.openFile · path .appending)
          modifyEndpoint fun e => { e with upload := some (.ofFile f) }
          return Handler.done) := by
    refine .bind (hI.call fun _ _ => hL.openFile path .appending) ?_
    intro f g hf
    refine .andThen (hI.modify ?_ fun _ => .inl rfl) fun _ => .pure rfl
    intro e e' he
    exact ⟨he.config, he.cwd, .some ⟨hf, rfl, rfl⟩, he.cursor, he.clock⟩
  refine .andThen (Bound.path payload) fun path => ?_
  refine .bind Bound.endpoint ?_
  intro e e' he
  rw [Upload.isSome_eq he.upload]
  split
  · exact .andThen (h := MonadExcept.throw _) (.throw _) fun _ => hopen path
  · exact hopen path

theorem writeFile (hL : L.Lawful) (id : UInt32) (payload : Bytes) :
    Tandem E T (L.Bound I : Bond size chunk σ φ ε) Eq (Handler.writeFile id payload)
      (Handler.writeFile id payload) := by
  intro v v' s d s' d' h
  have hkeep {w w' : Option (WriteSession chunk φ)} {t t' : σ} (hw : Option.Rel L.Upload w w')
      (ht : L.store t t') : L.Bound I v v' { s with endpoint := { s.endpoint with upload := w } }
        { d with store := t } { s' with endpoint := { s'.endpoint with upload := w' } }
        { d' with store := t' } :=
    ⟨ht, ⟨h.peers.config, h.peers.cwd, hw, h.peers.cursor, h.peers.clock⟩, h.outbox,
      hI.store t t' h.screens⟩
  have hupload := h.peers.upload
  rw [Conduct.on_run, Conduct.on_run, on_writeFile, on_writeFile, h.peers.config]
  split
  · exact ⟨.error _, h⟩
  generalize s.endpoint.upload = o at hupload ⊢
  generalize s'.endpoint.upload = o' at hupload ⊢
  cases hupload with
  | none => exact ⟨.error _, h⟩
  | @some w w' hw =>
    have hwrite := hL.writeSession h.store hw id payload s'.endpoint.config.enforceSequence
    dsimp only
    rcases hx : w.write d.store id payload s'.endpoint.config.enforceSequence with ⟨r, u, t⟩
    rcases hy : w'.write d'.store id payload s'.endpoint.config.enforceSequence with ⟨r', u', t'⟩
    rw [hx, hy] at hwrite
    obtain ⟨hr, hu, ht⟩ := hwrite
    obtain rfl : r = r' := hr
    cases r with
    | ok => exact ⟨.ok rfl, hkeep (.some hu) ht⟩
    | error x =>
      dsimp only
      split
      · exact ⟨.error x, hkeep .none (hL.closeFile ht hu.file).2⟩
      · exact ⟨.error x, hkeep (.some hu) ht⟩

theorem closeFile (hL : L.Lawful) :
    Tandem E T (L.Bound I : Bond size chunk σ φ ε) Eq Handler.closeFile Handler.closeFile := by
  refine .bind Bound.endpoint ?_
  intro e e' he
  have hupload := he.upload
  generalize e.upload = o at hupload ⊢
  generalize e'.upload = o' at hupload ⊢
  cases hupload with
  | none => exact .throw _
  | some hw =>
    refine .andThen (hI.modify ?_ fun _ => .inl rfl) fun _ => ?_
    · intro e e' he
      exact ⟨he.config, he.cwd, .none, he.cursor, he.clock⟩
    · refine .andThen (.always (hI.step fun _ _ h => hL.closeSession h hw)) fun r => ?_
      exact .andThen (.settle _ _) fun _ => .pure rfl

/-! ## Listing -/

theorem spill (bytes : Bytes) (reply : Reply) :
    Tandem E T (L.Bound I : Bond size chunk σ φ ε) Eq (Handler.spill bytes reply)
      (Handler.spill bytes reply) := by
  induction bytes generalizing reply with
  | nil => exact .pure rfl
  | cons b bs ih =>
    unfold Handler.spill
    split
    · exact ih _
    · refine .andThen (hI.send reply) fun _ => ?_
      exact .andThen (.settle _ _) fun r => ih r

theorem appendEntry (mode : ListingMode) (e : DirEntry) (reply : Reply) :
    Tandem E T (L.Bound I : Bond size chunk σ φ ε) Eq (Handler.appendEntry mode e reply)
      (Handler.appendEntry mode e reply) := by
  have hspill (reply : Reply) : Tandem E T (L.Bound I : Bond size chunk σ φ ε) Eq
      (some <$> Handler.spill (entryLine e) reply)
      (some <$> Handler.spill (entryLine e) reply) := by
    rw [map_eq_pure_bind]
    exact .andThen (hI.spill _ _) fun _ => .pure rfl
  unfold Handler.appendEntry
  dsimp only
  split
  · exact hspill reply
  · split
    · exact .pure rfl
    · split
      · exact hspill reply
      · exact .andThen (hI.send reply) fun _ => hspill _

theorem appendEntries (hL : L.Lawful) (mode : ListingMode) (n : Nat) {dir dir' : δ}
    (hdir : L.dir dir dir') (reply : Reply) :
    Conduct.Tandem E T (L.Bound I : Bond size chunk σ φ ε)
      (fun x y => x.1 = y.1 ∧ L.dir x.2 y.2) (Handler.appendEntries mode n dir reply)
      (Handler.appendEntries mode n dir' reply) := by
  induction n generalizing dir dir' reply with
  | zero => exact .pure ⟨rfl, hdir⟩
  | succ n ih =>
    unfold Handler.appendEntries
    refine .bind (R := fun x y => x.1 = y.1 ∧ L.dir x.2 y.2) (hI.step ?_) ?_
    · intro s t hst
      obtain ⟨hnext, hd, hst⟩ := hL.readDir hst hdir
      exact ⟨⟨hnext, hd⟩, hst⟩
    · rintro ⟨next, dir⟩ ⟨next', dir'⟩ ⟨hnext, hd⟩
      obtain rfl : next = next' := hnext
      rcases next with e | _ | e
      · exact .pure ⟨rfl, hd⟩
      · exact .pure ⟨rfl, hd⟩
      · dsimp only
        split
        · exact ih hd reply
        · refine .bind (hI.appendEntry mode e reply) ?_
          intro r r' hr
          cases hr with
          | error x => exact .pure ⟨rfl, hd⟩
          | @ok o o' ho =>
            obtain rfl : o = o' := ho
            cases o with
            | none => exact .pure ⟨rfl, hd⟩
            | some reply => exact ih hd reply

theorem ls (hL : L.Lawful) :
    Tandem E T (L.Bound I : Bond size chunk σ φ ε) Eq Handler.ls Handler.ls := by
  refine .bind Bound.endpoint ?_
  intro e e' he
  have htarget : listingTarget e = listingTarget e' := by
    unfold listingTarget
    rw [he.config, he.cwd]
  rw [htarget, he.config]
  refine .bind (hI.call fun _ _ => hL.openDir _) ?_
  intro dir dir' hdir
  refine .andThen (.always ?_) fun x => ?_
  · refine .andThen (hI.setHeld true) fun _ => ?_
    refine .andThen (hI.step fun _ _ h => ⟨hL.entriesLeft h hdir, h⟩) fun bound => ?_
    refine .bind (hI.appendEntries hL _ _ hdir _) ?_
    rintro ⟨listed, dir⟩ ⟨listed', dir'⟩ ⟨hlisted, hdir⟩
    obtain rfl : listed = listed' := hlisted
    refine .andThen (hI.step fun _ _ h => hL.closeDir h hdir) fun closed => ?_
    exact .andThen (hI.setHeld false) fun _ => .pure rfl
  · refine .andThen (.settle _ _) fun reply => ?_
    refine .andThen (.settle _ _) fun _ => ?_
    split
    · exact .andThen (hI.send reply) fun _ => .pure rfl
    · exact .pure rfl

/-! ## Sending a file -/

theorem sendPieces (hL : L.Lawful) (n : Nat) {f g : φ} (hf : L.file f g) :
    Conduct.Tandem E T (L.Bound I : Bond size chunk σ φ ε)
      (fun x y => x.1 = y.1 ∧ L.file x.2 y.2) (Handler.sendPieces n f)
      (Handler.sendPieces n g) := by
  induction n generalizing f g with
  | zero => exact .pure ⟨rfl, hf⟩
  | succ n ih =>
    unfold Handler.sendPieces
    refine .bind (R := fun x y => x.1 = y.1 ∧ L.file x.2 y.2) (hI.step ?_) ?_
    · intro s t hst
      obtain ⟨hbytes, hf, hst⟩ := hL.read pieceSize hst hf
      exact ⟨⟨hbytes, hf⟩, hst⟩
    · rintro ⟨bytes, f⟩ ⟨bytes', g⟩ ⟨hbytes, hf⟩
      obtain rfl : bytes = bytes' := hbytes
      dsimp only
      split
      · exact .pure ⟨rfl, hf⟩
      · exact .pure ⟨rfl, hf⟩
      · split
        · exact .pure ⟨rfl, hf⟩
        · refine .bind (hI.send _) ?_
          intro r r' hr
          cases hr with
          | error x => exact .pure ⟨rfl, hf⟩
          | ok _ => exact ih hf

theorem cat (hL : L.Lawful) (payload : Bytes) :
    Tandem E T (L.Bound I : Bond size chunk σ φ ε) Eq (Handler.cat payload)
      (Handler.cat payload) := by
  refine .andThen (Bound.path payload) fun path => ?_
  refine .bind (hI.call fun _ _ => hL.openFile path .reading) ?_
  intro f g hf
  refine .andThen (.always ?_) fun x => ?_
  · refine .andThen (hI.setHeld true) fun _ => ?_
    refine .andThen (hI.step fun _ _ h => ⟨hL.bytesLeft h hf, h⟩) fun bound => ?_
    refine .bind (hI.sendPieces hL _ hf) ?_
    rintro ⟨streamed, f⟩ ⟨streamed', g⟩ ⟨hstreamed, hf⟩
    obtain rfl : streamed = streamed' := hstreamed
    refine .andThen (hI.step fun _ _ h => hL.closeFile h hf) fun closed => ?_
    exact .andThen (hI.setHeld false) fun _ => .pure rfl
  · refine .andThen (.settle _ _) fun _ => ?_
    exact .andThen (.settle _ _) fun _ => .pure rfl

/-! ## Commands that may have to stop an animation -/

theorem abandonUpload (hL : L.Lawful) :
    Tandem E T (L.Bound I : Bond size chunk σ φ ε) Eq Handler.abandonUpload
      Handler.abandonUpload := by
  refine .bind Bound.endpoint ?_
  intro e e' he
  have hupload := he.upload
  generalize e.upload = o at hupload ⊢
  generalize e'.upload = o' at hupload ⊢
  cases hupload with
  | none => exact .pure rfl
  | some hw =>
    refine .andThen (hI.modify ?_ fun _ => .inl rfl) fun _ => ?_
    · intro e e' he
      exact ⟨he.config, he.cwd, .none, he.cursor, he.clock⟩
    · exact .always (hI.step fun _ _ h => ⟨rfl, (hL.closeFile h hw.file).2⟩)

theorem wipe (hL : L.Lawful) :
    Tandem E T (L.Bound I : Bond size chunk σ φ ε) Eq Handler.wipe Handler.wipe := by
  refine .andThen (hI.abandonUpload hL) fun _ => ?_
  refine .andThen (hI.modify ?_ fun _ => .inr rfl) fun _ => ?_
  · intro e e' he
    exact ⟨he.config, rfl, he.upload, rfl, he.clock⟩
  · refine .andThen (hI.callEq fun _ _ h => hL.format h) fun _ => ?_
    exact .andThen (hI.callEq fun _ _ h => hL.mount h) fun _ => .pure rfl

theorem format (hL : L.Lawful) :
    Tandem E T (L.Bound I : Bond size chunk σ φ ε) Eq Handler.format Handler.format := by
  intro v v' s d s' d' h
  rw [Conduct.on_run, Conduct.on_run, on_format, on_format]
  refine Run.Tandem.bind ((hI.stop h.screens h.store).imp ?_)
  rintro v v' a w b w' ⟨-, hstill, hstore⟩
  exact hI.wipe hL v v' s w s' w' ⟨hstore, h.peers, h.outbox, hstill.1⟩

theorem chooseImage (payload : Bytes) :
    Tandem E T (L.Bound I : Bond size chunk σ φ ε) Eq (Handler.chooseImage payload)
      (Handler.chooseImage payload) := by
  intro v v' s d s' d' h
  have hend {γ : Type} {v v' w w' : Device size σ φ} {x y : Except CommandError γ} (hxy : x = y)
      (hscreens : I v v' 0 w w') (hstore : L.store w.store w'.store) :
      Agree Eq (x.map fun _ => done) (y.map fun _ => done) ∧
        L.Bound I v v' { s with endpoint := { s.endpoint with cursor := 0 } } w
          { s' with endpoint := { s'.endpoint with cursor := 0 } } w' := by
    have hpeers := h.peers
    exact ⟨.of_eq (by rw [hxy]), hstore,
      ⟨hpeers.config, hpeers.cwd, hpeers.upload, rfl, hpeers.clock⟩, h.outbox, hscreens⟩
  have hstop := hI.stop h.screens h.store
  rw [Conduct.on_run, Conduct.on_run, on_chooseImage, on_chooseImage, (h.peers.paths payload).1]
  cases s'.endpoint.pathOf payload with
  | error x => exact ⟨.error _, h⟩
  | ok path =>
    dsimp only
    split
    · refine Run.Tandem.bind (Run.Tandem.bind (hstop.imp ?_))
      rintro v v' a w b w' ⟨-, ⟨hscreens, hstill⟩, hstore⟩
      obtain ⟨hresult, hscreens, hstore⟩ := hI.launch path ⟨hI.reset hscreens, hstill⟩ hstore
      exact hend hresult hscreens hstore
    · refine Run.Tandem.bind (Run.Tandem.bind (hstop.imp ?_))
      rintro v v' a w b w' ⟨-, ⟨hscreens, hstill⟩, hstore⟩
      obtain ⟨hresult, hscreens, hstore⟩ := hI.showFile path ⟨hI.reset hscreens, hstill⟩ hstore
      exact hend hresult hscreens hstore

theorem writeDisplay (payload : Bytes) :
    Tandem E T (L.Bound I : Bond size chunk σ φ ε) Eq (Handler.writeDisplay payload)
      (Handler.writeDisplay payload) := by
  intro v v' s d s' d' h
  have hpaint {v v' w w' : Device size σ φ} (hstill : Still I v v' s.endpoint.cursor w w')
      (hstore : L.store w.store w'.store) :
      (Handler.on (paint payload) s w).Tandem E T (fun v v' x w y w' => Agree Eq x.1 y.1 ∧
        L.Bound I v v' x.2 w y.2 w') v v' (Handler.on (paint payload) s' w') := by
    obtain ⟨hresult, hscreens, hstore⟩ := hI.writeRaw payload hstill hstore
    have hpeers := h.peers
    rw [on_paint, on_paint, ← hpeers.cursor, ← hresult]
    exact ⟨.of_eq rfl, hstore, ⟨hpeers.config, hpeers.cwd, hpeers.upload, rfl, hpeers.clock⟩,
      h.outbox, hscreens⟩
  have hplaying := hI.playing h.screens
  rw [Conduct.on_run, Conduct.on_run, on_writeDisplay, on_writeDisplay, ← hplaying]
  split
  · exact ⟨.error _, h⟩
  split
  · refine Run.Tandem.bind ((hI.stop h.screens h.store).imp ?_)
    rintro v v' a w b w' ⟨-, hstill, hstore⟩
    exact hpaint hstill hstore
  · rename_i hstill
    have hstill : d.playback.playing = false := Bool.eq_false_iff.mpr hstill
    exact hpaint ⟨h.screens, hstill, hplaying.symm.trans hstill⟩ h.store

/-! ## A whole frame -/

theorem execute (hL : L.Lawful) (p : Packet) :
    Tandem E T (L.Bound I : Bond size chunk σ φ ε) Eq (Handler.execute p) (Handler.execute p) := by
  unfold Handler.execute
  cases p.command with
  | ls => exact hI.ls hL
  | cd => exact hI.cd hL _
  | pwd => exact Bound.pwd
  | rm => exact hI.rm hL _
  | mkdir => exact hI.mkdir hL _
  | touch => exact hI.touch hL _
  | cat => exact hI.cat hL _
  | openFile => exact hI.openFile hL _
  | writeFile => exact hI.writeFile hL _ _
  | closeFile => exact hI.closeFile hL
  | format => exact hI.format hL
  | flashRemaining => exact hI.flashRemaining hL
  | chooseImage => exact hI.chooseImage _
  | writeDisplay => exact hI.writeDisplay _
  | setTime => exact hI.setTime _

theorem finish (reply : Reply) :
    Conduct.Tandem E T (L.Bound I : Bond size chunk σ φ ε) Eq (Conduct.finish reply)
      (Conduct.finish reply) := by
  intro v v' s d s' d' h
  rw [Conduct.on_finish, Conduct.on_finish]
  refine Run.Tandem.bind ((hI.post reply v v' s d s' d' h).imp ?_)
  rintro v v' x w y w' ⟨-, h⟩
  rw [h.outbox]
  exact ⟨rfl, h⟩

theorem serve (hL : L.Lawful) (frame : Bytes) :
    Conduct.Tandem E T (L.Bound I : Bond size chunk σ φ ε) Eq (Conduct.serve frame)
      (Conduct.serve frame) := by
  cases hd : Packet.decode frame with
  | error x =>
    unfold Conduct.serve
    rw [hd]
    exact hI.finish _
  | ok p =>
    intro v v' s d s' d' h
    rw [Conduct.on_serve s d hd, Conduct.on_serve s' d' hd]
    refine Run.Tandem.bind ((hI.execute hL p v v' s d s' d' h).imp ?_)
    rintro v v' ⟨r, s⟩ w ⟨r', s'⟩ w' ⟨hr, h⟩
    rw [Conduct.on_conclude, Conduct.on_conclude, h.outbox]
    split
    · exact ⟨rfl, h⟩
    · have hreply : finalReply r = finalReply r' := by
        cases hr with
        | error e => rfl
        | ok hr => rw [hr]
      rw [hreply]
      exact hI.finish _ v v' s w s' w' h

end

/-- A frame, or a stop, is served with the same answer on both sides. -/
theorem routine (hI : L.KeepsScreens E T I) (hL : L.Lawful) {e e' : Endpoint chunk φ}
    (he : L.Peers e e') {r : Request ε} (hr : r.Ordinary) {d d' : Device size σ φ}
    (hscreens : I d d' e.cursor d d') (hstore : L.store d.store d'.store) :
    (r.routine e d).Tandem E T (L.Outcome I) d d' (r.routine e' d') := by
  cases r with
  | frame transport bytes =>
    have hbound : L.Bound I d d' ⟨e, .empty transport⟩ d ⟨e', .empty transport⟩ d' :=
      ⟨hstore, he, rfl, hscreens⟩
    rw [Request.routine_frame, Request.routine_frame]
    refine Run.Tandem.bind ((hI.serve hL bytes _ _ _ _ _ _ hbound).imp ?_)
    rintro v v' x w y w' ⟨hxy, h⟩
    exact ⟨by rw [hxy, h.outbox], h.peers, h.screens, h.store⟩
  | stop =>
    rw [Request.routine_stop, Request.routine_stop]
    refine Run.Tandem.bind ((hI.stop hscreens hstore).imp ?_)
    rintro v v' a w b w' ⟨hab, hstill, hstore⟩
    exact ⟨by rw [hab], he, hstill.1, hstore⟩
  | start path => exact hr.elim
  | showStill path => exact hr.elim
  | loadConfig => exact hr.elim

end Likeness.KeepsScreens

/-! ## Two scenes -/

namespace Scene

/-- No command is in hand in either scene and the screens correspond; or both commands are at the
same pause, and go on in tandem whenever the pauses end as `E` says. -/
inductive Abreast [FileStore σ φ δ] (L : Likeness σ φ δ) (E T : Onward size σ φ)
    (I : Likeness.Screens size σ φ) (s t : Scene size chunk σ φ ε) : Prop
  | free {e e' : Endpoint chunk φ} : s.hand = .free e → t.hand = .free e' → L.Peers e e' →
      I s.device t.device e.cursor s.device t.device → L.store s.device.store t.device.store →
      Abreast L E T I s t
  | busy {r e p k r' e' k'} : s.hand = .busy r e p k → t.hand = .busy r' e' p k' →
      T p s.device t.device s.device t.device →
      (∀ u u', E p s.device t.device u u' →
        (k u).Tandem E T (L.Outcome I) u u' (k' u')) →
      Abreast L E T I s t

/-- Commands that ran in tandem are at the same pause, or have given the same answer. -/
theorem settle_abreast [FileStore σ φ δ] {L : Likeness σ φ δ} {E T : Onward size σ φ}
    {I : Likeness.Screens size σ φ} {v v' : Device size σ φ}
    {D : Device size σ φ → Device size σ φ → Prop}
    {run run' : Run (Device size σ φ) (Answer ε × Endpoint chunk φ)}
    (hT : ∀ p w w', T p v v' w w' → D w w' ∧ T p w w' w w')
    (hI : ∀ n w w', I v v' n w w' → D w w' ∧ I w w' n w w')
    (h : run.Tandem E T (L.Outcome I) v v' run') (r r' : Request ε) (e e' : Endpoint chunk φ) :
    (settle r e run).1 = (settle r' e' run').1 ∧
      D (settle r e run).2.device (settle r' e' run').2.device ∧
      Abreast L E T I (settle r e run).2 (settle r' e' run').2 := by
  cases run with
  | done x w =>
    cases run' with
    | done y w' =>
      have hanswer : (settle r e (.done x w)).1 = (settle r' e' (.done y w')).1 :=
        congrArg Event.answered h.answer
      obtain ⟨hshown, hscreens⟩ := hI _ _ _ h.screens
      exact ⟨hanswer, hshown, .free rfl rfl h.peers hscreens h.store⟩
    | paused p' w' k' => exact h.elim
  | paused p w k =>
    cases run' with
    | done y w' => exact h.elim
    | paused p' w' k' =>
      obtain ⟨hp, hparting, hrun⟩ := h
      obtain rfl : p = p' := hp
      obtain ⟨hshown, hbegun⟩ := hT _ _ _ hparting
      exact ⟨rfl, hshown, .busy rfl rfl hbegun hrun⟩

end Scene

end PanelLink
