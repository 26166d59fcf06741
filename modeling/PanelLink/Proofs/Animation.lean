import PanelLink.Proofs.Handshake
import PanelLink.Proofs.Plain
import PanelLink.Proofs.Soundness

/-!
What commands do to an animation. A stretch of a command leaves it as it is, or leaves none, or
begins a new one from a file that was just opened.
-/
namespace PanelLink

variable {size chunk : Nat} {σ φ δ ε : Type}

namespace Device

/-- The releases of the panel, with one to come if the file of an animation is open. -/
def charge (d : Device size σ φ) : Nat :=
  d.display.releases + d.file.isSome.toNat

/-- From `v` to `w` the animation was ended, in the session of `v` and for the same charge. -/
structure Quit (v w : Device size σ φ) : Prop where
  tornDown : w.TornDown
  coherent : w.Coherent
  session : w.playback.session = v.playback.session
  charge : w.charge = v.charge

theorem TornDown.settled {d : Device size σ φ} (h : d.TornDown) : d.Settled :=
  ⟨by rw [h.still, h.gone], by rw [h.gone, h.closed]; rfl⟩

variable [FileStore σ φ δ]

/-- A start found `frames` whole frames at `path` and opened the file. -/
def Opened (size : Nat) (σ : Type) {φ δ : Type} [FileStore σ φ δ] (path : Bytes) (frames : Nat)
    (f : φ) : Prop :=
  ∃ (s s₁ s₂ : σ) (length : Nat), FileStore.stat s path = (.ok ⟨.file, length⟩, s₁) ∧
    FileStore.openFile s₁ path .reading = (.ok f, s₂) ∧ frames = length / size ∧ frames ≠ 0

/-- How a stretch of a command changes the animation: not at all, to none, or to that at
`target`. -/
inductive Shift (target : Option Bytes) (v w : Device size σ φ) : Prop
  | quiet : w.playback = v.playback → w.buffers = v.buffers → w.file = v.file →
      w.display = v.display → Shift target v w
  | idle : w.playback.playing = false → w.playback.session = v.playback.session →
      w.charge = v.charge → Shift target v w
  | launch {path : Bytes} {frames : Nat} {f : φ} : target = some path →
      w.playback = v.playback.start frames → w.file = some f → Opened size σ path frames f →
      w.charge = v.charge + 1 → Shift target v w

structure AtEnd (target : Option Bytes) (v w : Device size σ φ) : Prop where
  shift : Shift target v w
  coherent : w.Coherent
  settled : w.Settled

structure AtPause (target : Option Bytes) (p : Pause) (v w : Device size σ φ) : Prop where
  shift : Shift target v w
  coherent : w.Coherent
  settled : p = .delivery → w.Settled
  halted : p = .acknowledgement →
    w.playback.playing = false ∧ v.playback.loaderActive = true

theorem AtEnd.refl {target : Option Bytes} {d : Device size σ φ} (hc : d.Coherent)
    (hs : d.Settled) : AtEnd target d d :=
  ⟨.quiet rfl rfl rfl rfl, hc, hs⟩

theorem Quit.atEnd {target : Option Bytes} {v w : Device size σ φ} (h : Quit v w) :
    AtEnd target v w :=
  ⟨.idle h.tornDown.still h.session h.charge, h.coherent, h.tornDown.settled⟩

theorem AtEnd.congr {target : Option Bytes} {v w w' : Device size σ φ} (h : AtEnd target v w)
    (hp : w'.playback = w.playback) (hb : w'.buffers = w.buffers) (hf : w'.file = w.file)
    (hd : w'.display = w.display) (hl : w'.loader = w.loader)
    (hs : w'.startSignal = w.startSignal) (he : w'.leftSignal = w.leftSignal) :
    AtEnd target v w' where
  shift := by
    have hcharge : w'.charge = w.charge := by rw [charge, charge, hd, hf]
    cases h.shift with
    | quiet h₁ h₂ h₃ h₄ => exact .quiet (hp.trans h₁) (hb.trans h₂) (hf.trans h₃) (hd.trans h₄)
    | idle h₁ h₂ h₃ => exact .idle (by rw [hp, h₁]) (by rw [hp, h₂]) (hcharge.trans h₃)
    | launch h₁ h₂ h₃ h₄ h₅ =>
      exact .launch h₁ (hp.trans h₂) (hf.trans h₃) h₄ (hcharge.trans h₅)
  coherent := h.coherent.congr hp hl hs (by rw [he]; exact id) (by rw [hf])
  settled := by
    unfold Settled
    rw [hp, hf]
    exact h.settled

/-! ## Waiting for the loader -/

/-- A stop is waiting: nothing plays, and the session, the file and the releases are those of
`v`. -/
structure Halted (v w : Device size σ φ) : Prop where
  coherent : w.Coherent
  still : w.playback.playing = false
  session : w.playback.session = v.playback.session
  file : w.file.isSome = v.file.isSome
  releases : w.display.releases = v.display.releases

theorem Halted.charge {v w : Device size σ φ} (h : Halted v w) : w.charge = v.charge := by
  rw [Device.charge, Device.charge, h.file, h.releases]

theorem Halted.tick_eq {v w : Device size σ φ} (h : Halted v w) : w.tick.2 = w := by
  unfold tick
  simp [h.still]

theorem Halted.aside {v w : Device size σ φ} (h : Halted v w) (a : Aside σ) :
    Halted v (a.apply w).2 := by
  have hc := h.coherent.aside a
  cases a with
  | poll =>
    obtain ⟨hd, hf⟩ := poll_display h.coherent
    have hrel := (congrArg Display.releases hd).trans h.releases
    obtain hp | ⟨hp, -⟩ | ⟨-, hp⟩ := poll_playback h.coherent
    · exact ⟨hc, (congrArg Playback.playing hp).trans h.still,
        (congrArg Playback.session hp).trans h.session, hf.trans h.file, hrel⟩
    · simp [h.still] at hp
    · exact ⟨hc, (congrArg Playback.playing hp).trans h.still,
        (congrArg Playback.session hp).trans h.session, hf.trans h.file, hrel⟩
  | tick =>
    have ht : (Aside.tick.apply w).2 = w := h.tick_eq
    rw [ht]
    exact h
  | timer =>
    have ht : (Aside.timer.apply w).2 = { w with timerRunning := true }.delay w.timing.frame := by
      show w.pollTimer = _
      unfold pollTimer
      rw [h.tick_eq, ite_self]
    rw [ht] at hc ⊢
    exact ⟨hc, h.still, h.session, h.file, h.releases⟩
  | alter change => exact ⟨hc, h.still, h.session, h.file, h.releases⟩
  | setFault fault => exact ⟨hc, h.still, h.session, h.file, h.releases⟩

theorem Halted.arrived {v w : Device size σ φ} (h : Halted v w) (p : Pause) :
    Halted v (w.arrived p).2 := by
  have hc := h.coherent.arrived p
  obtain ⟨b, hw⟩ := w.arrived_rest p
  rw [hw] at hc ⊢
  exact ⟨hc, h.still, h.session, h.file, h.releases⟩

theorem Halted.resumes {ok : Aside σ → Prop} {p : Pause} {v w w' : Device size σ φ}
    (h : Halted v w) (hr : Resumes ok p w w') : Halted v w' :=
  hr.induct (fun _ a _ h => h.aside a) (fun _ h => h.arrived p) h

theorem Coherent.halt {d : Device size σ φ} (hc : d.Coherent) :
    d.requestStop.2.Coherent where
  engaged := hc.engaged
  told := hc.told
  left := hc.left
  playing h := by simp [requestStop, Playback.halt] at h
  file := hc.file
  current h := by simp [requestStop, Playback.halt] at h
  ready h := by simp [requestStop, Playback.halt] at h
  queued job hl h := by simp [requestStop, Playback.halt] at h

/-! ## Stopping -/

/-- What is left once the loader has gone and the file is closed. -/
theorem Halted.teardown {v w : Device size σ φ} (h : Halted v w) {wasPlaying : Bool}
    (hv : v.file.isSome = wasPlaying) (hg : w.playback.loaderActive = false) :
    Quit v (w.teardown wasPlaying) := by
  obtain ⟨hl, hu⟩ := h.coherent.asleep_of_not_active hg
  have hclosed : w.closeAnimation.file = none := by
    unfold closeAnimation
    split
    · assumption
    · rfl
  have hkept : w.closeAnimation.playback = w.playback ∧ w.closeAnimation.loader = w.loader ∧
      w.closeAnimation.startSignal = w.startSignal ∧ w.closeAnimation.leftSignal = w.leftSignal ∧
      w.closeAnimation.display = w.display := by
    unfold closeAnimation
    split <;> exact ⟨rfl, rfl, rfl, rfl, rfl⟩
  obtain ⟨hp, hl', hu', he, hd⟩ := hkept
  have hdown : w.closeAnimation.TornDown :=
    ⟨hl'.trans hl, hu'.trans hu, by rw [hp, h.still], by rw [hp, hg], hclosed⟩
  have hc : w.closeAnimation.Coherent := {
    engaged := by simp [hdown.gone, hdown.untold, hdown.asleep]
    told := fun _ => hdown.asleep
    left := fun _ => hdown.gone
    playing := fun h => by simp [hdown.still] at h
    file := fun h => by simp [hdown.gone] at h
    current := fun h => by simp [hdown.still] at h
    ready := by rw [hp]; exact h.coherent.ready
    queued := fun job h => by simp [hdown.asleep] at h }
  have hs : w.closeAnimation.playback.session = v.playback.session := by rw [hp, h.session]
  unfold Device.teardown
  cases wasPlaying with
  | false =>
    refine ⟨hdown, hc, hs, ?_⟩
    show w.closeAnimation.charge = _
    rw [Device.charge, Device.charge, hclosed, hd, h.releases, hv]
    rfl
  | true =>
    refine ⟨⟨hdown.asleep, hdown.untold, hdown.still, hdown.gone, hdown.closed⟩,
      hc.congr rfl rfl rfl id rfl, hs, ?_⟩
    show w.closeAnimation.display.releases + 1 + w.closeAnimation.file.isSome.toNat = _
    rw [Device.charge, hclosed, hd, h.releases, hv]
    rfl

/-- With a session to leave, a stop waits for the loader. -/
theorem Coherent.stop_eq {d : Device size σ φ} (hc : d.Coherent)
    (ha : d.playback.loaderActive = true) :
    Device.stop d = .paused .acknowledgement d.requestStop.2 fun w =>
      .done d.playback.playing (w.teardown d.playback.playing) := by
  have hl : d.leftSignal = false := Bool.eq_false_iff.mpr fun h => by simp [hc.left h] at ha
  have hwait : awaitLeft d.requestStop.2 = .paused .acknowledgement d.requestStop.2 (.done ()) := by
    unfold awaitLeft takeLeft
    simp [requestStop, hl]
  rw [Device.stop_eq, if_pos ha, hwait]
  rfl

/-- Whatever happens while a stop waits, the device is torn down where the stop returns. -/
theorem stop_meets {ok : Aside σ → Prop} {d : Device size σ φ} (hc : d.Coherent)
    (hs : d.Settled) :
    (Device.stop d).Meets (Resumes ok)
      (fun p v w => p = .acknowledgement ∧ v.playback.loaderActive = true ∧ Halted v w)
      (fun v _ w => Quit v w) d := by
  have hhalt : Halted d d.requestStop.2 := ⟨hc.halt, rfl, rfl, rfl, rfl⟩
  have hv : d.file.isSome = d.playback.playing := (hs.1.trans hs.2).symm
  by_cases ha : d.playback.loaderActive = true
  · rw [hc.stop_eq ha]
    refine ⟨⟨rfl, ha, hhalt⟩, fun w hw => ?_⟩
    have hhw := hhalt.resumes hw
    have hq := hhw.teardown hv hw.gone
    exact ⟨hq.tornDown, hq.coherent, hq.session.trans hhw.session.symm,
      hq.charge.trans hhw.charge.symm⟩
  · rw [Device.stop_eq, if_neg ha]
    exact hhalt.teardown hv (Bool.eq_false_iff.mpr ha)

/-! ## Starting, and showing an image -/

theorem Quit.congr {v w w' : Device size σ φ} (h : Quit v w) (hp : w'.playback = w.playback)
    (hf : w'.file = w.file) (hd : w'.display.releases = w.display.releases)
    (hl : w'.loader = w.loader) (hs : w'.startSignal = w.startSignal)
    (he : w'.leftSignal = w.leftSignal) : Quit v w' where
  tornDown := h.tornDown.congr hp hl hs hf
  coherent := h.coherent.congr hp hl hs (by rw [he]; exact id) (by rw [hf])
  session := by rw [hp, h.session]
  charge := by rw [← h.charge, Device.charge, Device.charge, hd, hf]

/-- A start on an idle device begins an animation or leaves none. -/
theorem Quit.launch {v w : Device size σ φ} (h : Quit v w) (path : Bytes) :
    (∃ n f, (Device.launch path w).1 = .ok n ∧ Opened size σ path n f ∧
      (Device.launch path w).2.playback = v.playback.start n ∧
      (Device.launch path w).2.file = some f ∧ (Device.launch path w).2.charge = v.charge + 1 ∧
      (Device.launch path w).2.Coherent ∧ (Device.launch path w).2.Settled) ∨
    ((∃ e, (Device.launch path w).1 = .error e) ∧ Quit v (Device.launch path w).2) := by
  have hfile : w.file = none := h.tornDown.closed
  unfold Device.launch callStore
  dsimp only
  rcases hstat : FileStore.stat w.store path with ⟨_ | ⟨kind, length⟩, s₁⟩
  · exact .inr ⟨⟨_, rfl⟩, h.congr rfl rfl rfl rfl rfl rfl⟩
  cases kind with
  | dir => exact .inr ⟨⟨_, rfl⟩, h.congr rfl rfl rfl rfl rfl rfl⟩
  | file =>
    by_cases hn : length / size = 0
    · simp only [hn, if_true]
      exact .inr ⟨⟨_, rfl⟩, h.congr rfl rfl rfl rfl rfl rfl⟩
    simp only [hn, if_false]
    rcases hopen : FileStore.openFile s₁ path .reading with ⟨_ | f, s₂⟩
    · exact .inr ⟨⟨_, rfl⟩, h.congr rfl rfl rfl rfl rfl rfl⟩
    refine .inl ⟨length / size, f, rfl, ⟨w.store, s₁, s₂, length, hstat, hopen, rfl, hn⟩, ?_⟩
    have hstart : w.playback.start (length / size) = v.playback.start (length / size) := by
      unfold Playback.start
      rw [h.session]
    simp only [installFile, hfile, beginSession]
    refine ⟨hstart, trivial, ?_, ?_, ⟨rfl, rfl⟩⟩
    · rw [← h.charge, Device.charge, Device.charge, hfile]
      rfl
    · exact {
        engaged := by simp [Playback.start]
        told := fun _ => h.tornDown.asleep
        left := fun h => by simp at h
        playing := fun _ => ⟨rfl, rfl⟩
        file := fun _ => rfl
        current := fun _ => by
          exact Nat.sub_lt (Nat.pos_of_ne_zero hn) Nat.one_pos
        ready := fun h => by simp [Playback.start] at h
        queued := fun job hl => by simp [h.tornDown.asleep] at hl }

theorem present_eq {d w : Device size σ φ} {frame : Bytes} {r : Except DisplayError Unit}
    (h : d.present frame = (r, w)) :
    ∃ frames, w = { d with display := { d.display with frames := frames } } := by
  unfold present Display.present at h
  cases hf : d.display.fault with
  | some e =>
    simp only [hf, Prod.mk.injEq] at h
    exact ⟨d.display.frames, h.2.symm⟩
  | none =>
    simp only [hf, Prod.mk.injEq] at h
    refine ⟨d.display.frames ++ [frame], ?_⟩
    rw [← h.2]
    simp only [hf]

/-- A still image touches the store, the buffers and what the panel has shown. -/
theorem showFile_eq (path : Bytes) (d : Device size σ φ) :
    ∃ t b frames, (showFile path d).2 =
      { d with store := t, buffers := b, display := { d.display with frames := frames } } := by
  unfold showFile callStore
  dsimp only
  rcases FileStore.openFile d.store path .reading with ⟨_ | f, s⟩
  · exact ⟨s, d.buffers, d.display.frames, rfl⟩
  dsimp only
  split
  · exact ⟨_, _, d.display.frames, rfl⟩
  · exact ⟨_, _, d.display.frames, rfl⟩
  · split
    · exact ⟨_, _, d.display.frames, rfl⟩
    · split
      · rename_i h
        obtain ⟨frames, rfl⟩ := present_eq h
        exact ⟨_, _, frames, rfl⟩
      · rename_i h
        obtain ⟨frames, rfl⟩ := present_eq h
        exact ⟨_, _, frames, rfl⟩

/-- Raw pixels touch the first buffer and what the panel has shown. -/
theorem writeRaw_eq (cursor : Nat) (pixels : Bytes) (d : Device size σ φ) :
    ∃ b frames, (writeRaw cursor pixels d).2 =
      { d with buffers := b, display := { d.display with frames := frames } } := by
  unfold writeRaw
  dsimp only
  split
  · split
    · rename_i h
      obtain ⟨frames, rfl⟩ := present_eq h
      exact ⟨_, frames, rfl⟩
    · rename_i h
      obtain ⟨frames, rfl⟩ := present_eq h
      exact ⟨_, frames, rfl⟩
  · exact ⟨_, d.display.frames, rfl⟩

theorem Quit.refl {d : Device size σ φ} (hc : d.Coherent) (h : d.TornDown) : Quit d d :=
  ⟨h, hc, rfl, rfl⟩

theorem Quit.showFile {v w : Device size σ φ} (h : Quit v w) (path : Bytes) :
    Quit v (Device.showFile path w).2 := by
  obtain ⟨t, b, frames, hw⟩ := w.showFile_eq path
  rw [hw]
  exact h.congr rfl rfl rfl rfl rfl rfl

theorem Quit.writeRaw {v w : Device size σ φ} (h : Quit v w) (cursor : Nat) (pixels : Bytes) :
    Quit v (Device.writeRaw cursor pixels w).2 := by
  obtain ⟨b, frames, hw⟩ := w.writeRaw_eq cursor pixels
  rw [hw]
  exact h.congr rfl rfl rfl rfl rfl rfl

theorem Halted.atPause {target : Option Bytes} {v w : Device size σ φ} (h : Halted v w)
    (ha : v.playback.loaderActive = true) : AtPause target .acknowledgement v w :=
  ⟨.idle h.still h.session h.charge, h.coherent, by simp, fun _ => ⟨h.still, ha⟩⟩

theorem stop_then {ok : Aside σ → Prop} {α : Type} {target : Option Bytes}
    {Q : Device size σ φ → α → Device size σ φ → Prop}
    {f : Bool → Device size σ φ → Run (Device size σ φ) α} {d : Device size σ φ}
    (hc : d.Coherent) (hs : d.Settled)
    (hf : ∀ v b w, Quit v w → (f b w).Meets (Resumes ok) (AtPause target) Q v) :
    ((Device.stop d).bind f).Meets (Resumes ok) (AtPause target) Q d := by
  rw [Run.meets_bind]
  refine ((stop_meets hc hs).imp hf).mono ?_
  rintro p v w ⟨rfl, ha, h⟩
  exact h.atPause ha

/-- A start says that it succeeded when an animation begins, with its frames. -/
theorem start_meets {ok : Aside σ → Prop} {path : Bytes} {d : Device size σ φ} (hc : d.Coherent)
    (hs : d.Settled) :
    (Device.start path d).Meets (Resumes ok) (AtPause (some path))
      (fun v r w => AtEnd (some path) v w ∧
        ((∃ n, r = .ok n ∧ w.playback = v.playback.start n) ∨ (∃ e, r = .error e) ∧ w.TornDown))
      d := by
  refine stop_then hc hs fun v _ w h => ?_
  show AtEnd (some path) v (launch path w).2 ∧ _
  obtain ⟨n, f, hr, hopen, hp, hf, hcharge, hc, hs⟩ | ⟨hr, hq⟩ := h.launch path
  · exact ⟨⟨.launch rfl hp hf hopen hcharge, hc, hs⟩, .inl ⟨n, hr, hp⟩⟩
  · exact ⟨hq.atEnd, .inr ⟨hr, hq.tornDown⟩⟩

theorem showStill_meets {ok : Aside σ → Prop} {target : Option Bytes} (path : Bytes)
    {d : Device size σ φ} (hc : d.Coherent) (hs : d.Settled) :
    (Device.showStill path d).Meets (Resumes ok) (AtPause target)
      (fun v _ w => AtEnd target v w) d :=
  stop_then hc hs fun _ _ _ h => (h.showFile path).atEnd

end Device

/-! ## Whole requests -/

/-- The path of the animation that the request is to start. -/
def Request.animation? (e : Endpoint chunk φ) : Request ε → Option Bytes
  | .start path => some path
  | .frame _ bytes =>
    match Packet.decode bytes with
    | .ok ⟨.chooseImage, _, payload⟩ => (e.pathOf payload).toOption.filter Path.isAnimation
    | _ => none
  | _ => none

variable [FileStore σ φ δ] {ok : Aside σ → Prop} {target : Option Bytes}

open Device Handler

def Unsettled (target : Option Bytes) : Assertion size chunk σ φ ε :=
  fun v _ d => AtEnd target v d

variable (size σ ε) in
def Begun (e : Endpoint chunk φ) : Assertion size chunk σ φ ε :=
  fun v s d => v = d ∧ s.endpoint = e ∧ d.Coherent ∧ d.Settled

theorem Begun.atEnd {e : Endpoint chunk φ} {v d : Device size σ φ} {s : Serving chunk φ ε}
    (h : Begun size σ ε e v s d) : AtEnd target v d := by
  obtain ⟨rfl, -, hc, hs⟩ := h
  exact .refl hc hs

theorem plain_animation : KeptByPlain (Resumes ok) (AtPause target)
    fun _ : CommandHandle φ δ => (Unsettled target : Assertion size chunk σ φ ε) where
  pause {l v s d} h _ := by
    refine ⟨⟨h.shift, h.coherent, fun _ => h.settled, by simp⟩, fun w hw => ?_⟩
    have hboth : w.Coherent ∧ w.Settled :=
      hw.induct (P := fun w => w.Coherent ∧ w.Settled)
        (fun _ a _ h => ⟨h.1.aside a, h.2.aside h.1 a⟩)
        (fun w h => ⟨h.1.arrived .delivery, h.2⟩) ⟨h.coherent, h.settled⟩
    exact .refl hboth.1 hboth.2
  outbox _ h := h
  held b h := h.congr rfl rfl rfl rfl rfl rfl rfl
  cwd c h := h
  clock c h := h
  openFile path h := by
    split <;> exact h.congr rfl rfl rfl rfl rfl rfl rfl
  closeFile h := h.congr rfl rfl rfl rfl rfl rfl rfl
  read n h := h.congr rfl rfl rfl rfl rfl rfl rfl
  openDir path h := by
    split <;> exact h.congr rfl rfl rfl rfl rfl rfl rfl
  readDir h := h.congr rfl rfl rfl rfl rfl rfl rfl
  closeDir h := h.congr rfl rfl rfl rfl rfl rfl rfl
  create path h := by
    split <;> exact h.congr rfl rfl rfl rfl rfl rfl rfl
  mkdir path h := h.congr rfl rfl rfl rfl rfl rfl rfl
  usedBlocks h := h.congr rfl rfl rfl rfl rfl rfl rfl

theorem free_animation :
    Free (Unsettled target : Assertion size chunk σ φ ε) :=
  fun _ _ _ _ _ _ h => h.congr rfl rfl rfl rfl rfl rfl rfl

private theorem stop_quits {e : Endpoint chunk φ} :
    Conduct.Triple (Resumes ok) (AtPause target) (Begun size σ ε e)
      (Conduct.ofRoutine Device.stop) fun _ v _ w => Quit v w := by
  refine .ofRoutine fun v s d h => ?_
  obtain ⟨rfl, -, hc, hs⟩ := h
  refine (stop_meets hc hs).mono ?_
  rintro p v w ⟨rfl, ha, h⟩
  exact h.atPause ha

theorem format_animation (e : Endpoint chunk φ) :
    Triple (Resumes ok) (AtPause target) (Begun size σ ε e) Handler.format
      (fun _ => Unsettled target) (Unsettled target) := by
  unfold Handler.format
  refine .bind (Q := fun _ => Unsettled target) (.always ?_) fun _ => ?_
  · exact stop_quits.weaken (fun _ _ _ h => h) fun _ _ _ _ h => h.atEnd
  · exact free_animation.wipe fun _ _ _ _ h => h

private theorem paint_animation (payload : Bytes) :
    Triple (Resumes ok) (AtPause target)
      (fun v (_ : Serving chunk φ ε) (d : Device size σ φ) => Quit v d) (Handler.paint payload)
      (fun _ => Unsettled target) (Unsettled target) := by
  unfold Handler.paint
  refine .bind (.endpoint (Q := fun _ v _ d => Quit v d) fun _ _ _ h => h) fun e => ?_
  refine .bind (.always (.onDevice (Q := fun _ => Unsettled target)
    fun v s d h => (h.writeRaw e.cursor payload).atEnd)) fun (result, cursor) => ?_
  exact .bind (.modifyEndpoint fun _ _ _ h => h) fun _ => .bind .settle fun _ => .skip

private theorem writeDisplay_animation (e : Endpoint chunk φ) (payload : Bytes) :
    Triple (Resumes ok) (AtPause target) (Begun size σ ε e)
      (Handler.writeDisplay payload) (fun _ => Unsettled target)
      (Unsettled target) := by
  intro v s d h
  rw [Conduct.on_run, on_writeDisplay]
  split
  · exact h.atEnd
  obtain ⟨rfl, -, hc, hs⟩ := h
  split
  · exact stop_then hc hs fun v _ w hq => paint_animation payload v s w hq
  · rename_i hp
    exact paint_animation payload v s v (.refl hc (hc.tornDown hs (by simpa using hp)))

private theorem chooseImage_animation (e : Endpoint chunk φ) (payload : Bytes)
    (ht : ∀ path, e.pathOf payload = .ok path → Path.isAnimation path = true →
      target = some path) :
    Triple (Resumes ok) (AtPause target) (Begun size σ ε e)
      (Handler.chooseImage payload) (fun _ => Unsettled target)
      (Unsettled target) := by
  intro v s d h
  have hend : Unsettled target v s d := h.atEnd
  obtain ⟨rfl, rfl, hc, hs⟩ := h
  rw [Conduct.on_run, on_chooseImage]
  cases hpath : s.endpoint.pathOf payload with
  | error x => exact hend
  | ok path =>
    dsimp only
    split
    · rename_i hanim
      rw [ht path hpath hanim, Run.meets_bind]
      refine (start_meets hc hs).imp fun v r w h => ?_
      cases r <;> exact h.1
    · rw [Run.meets_bind]
      refine (showStill_meets path hc hs).imp fun v r w h => ?_
      cases r <;> exact h

private theorem execute_animation (e : Endpoint chunk φ) (p : Packet)
    (ht : ∀ path, p.command = .chooseImage → e.pathOf p.payload = .ok path →
      Path.isAnimation path = true → target = some path) :
    Triple (Resumes ok) (AtPause target) (Begun size σ ε e)
      (Handler.execute p) (fun _ => Unsettled target)
      (Unsettled target) := by
  have hkeep {h : Handler size chunk σ φ ε Reply}
      (hh : Keeps (Resumes ok) (AtPause target) (Unsettled target) h) :
      Triple (Resumes ok) (AtPause target) (Begun size σ ε e) h
        (fun _ => Unsettled target) (Unsettled target) :=
    hh.weaken (fun _ _ _ h => h.atEnd) (fun _ _ _ _ h => h) fun _ _ _ h => h
  by_cases hp : p.command.plain = true
  · exact hkeep (plain_animation.plain p hp)
  unfold Handler.execute
  cases hc : p.command with
  | rm => exact hkeep (free_animation.rm _)
  | openFile => exact hkeep (free_animation.openFile _)
  | writeFile => exact hkeep (free_animation.writeFile _ _)
  | closeFile => exact hkeep free_animation.closeFile
  | format => exact format_animation e
  | chooseImage => exact chooseImage_animation e _ fun path => ht path hc
  | writeDisplay => exact writeDisplay_animation e _
  | _ => simp [Command.plain, hc] at hp

theorem serve_animation (e : Endpoint chunk φ) (transport : Transport ε) (frame : Bytes) :
    Conduct.Triple (Resumes ok) (AtPause ((Request.frame transport frame).animation? e))
      (Begun size σ ε e) (Conduct.serve frame)
      fun _ => Unsettled ((Request.frame transport frame).animation? e) := by
  refine plain_animation.serve frame (fun _ _ _ h => h.atEnd) fun p hp => ?_
  refine execute_animation e p fun path hc hpath hanim => ?_
  obtain ⟨command, id, payload⟩ := p
  obtain rfl : command = .chooseImage := hc
  simp only [Request.animation?, hp, hpath, Except.toOption, Option.filter_some, hanim, if_true]

def Paused (e : Endpoint chunk φ) (r : Request ε) :
    Pause → Device size σ φ → Device size σ φ → Prop :=
  AtPause (r.animation? e)

/-- What holds of the animation where a request ends; a start tells whether it began one. -/
structure Ended (e : Endpoint chunk φ) (r : Request ε) (v : Device size σ φ)
    (x : Answer ε × Endpoint chunk φ) (w : Device size σ φ) : Prop where
  atEnd : AtEnd (r.animation? e) v w
  started : ∀ n, x.1 = .started (.ok n) → w.playback = v.playback.start n
  failed : ∀ c, x.1 = .started (.error c) → w.TornDown

/-- Whatever is asked for, and whatever goes on meanwhile, an animation is kept, ended or begun. -/
theorem routine_animation (e : Endpoint chunk φ) (r : Request ε) {d : Device size σ φ}
    (hc : d.Coherent) (hs : d.Settled) :
    (r.routine e d).Meets (Resumes ok) (Paused e r) (Ended e r) d := by
  unfold Paused
  cases r with
  | frame transport bytes =>
    rw [Request.routine_frame, Run.meets_bind]
    refine (serve_animation e transport bytes d ⟨e, .empty transport⟩ d ⟨rfl, rfl, hc, hs⟩).imp ?_
    exact fun v x w h => ⟨h, by simp, by simp⟩
  | stop =>
    rw [Request.routine_stop]
    exact stop_then hc hs fun v b w h => ⟨h.atEnd, by simp, by simp⟩
  | start path =>
    rw [Request.routine_start, Run.meets_bind]
    refine (start_meets hc hs).imp ?_
    rintro v r w ⟨hend, ⟨n, rfl, hp⟩ | ⟨⟨x, rfl⟩, ht⟩⟩
    · exact ⟨hend, fun m hm => by cases hm; exact hp, by simp⟩
    · exact ⟨hend, by simp, fun _ _ => ht⟩
  | showStill path =>
    rw [Request.routine_showStill, Run.meets_bind]
    exact (showStill_meets path hc hs).imp fun v r w h => ⟨h, by simp, by simp⟩
  | loadConfig =>
    rw [Request.routine_loadConfig]
    exact ⟨(AtEnd.refl hc hs).congr rfl rfl rfl rfl rfl rfl rfl, by simp, by simp⟩

end PanelLink
