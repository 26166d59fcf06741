import PanelLink.Proofs.Frames
import PanelLink.Proofs.Likeness

/-!
A device between two steps of a command, and what its tasks make of it: an animation goes on, and
nothing else.
-/
namespace PanelLink

/-- The aside is a poll of the loader, a tick or the timer. -/
def Aside.OfTasks {σ : Type} : Aside σ → Prop
  | poll | tick | timer => True
  | alter _ | setFault _ => False

variable {size : Nat} {σ φ δ : Type}

namespace Device

variable {n : Nat} {d w : Device size σ φ} {a : Aside σ}

/-- A device between two steps of a command whose panel takes every frame. Nothing plays while `n`
raw pixels wait. -/
structure Poised (n : Nat) (d : Device size σ φ) : Prop where
  coherent : d.Coherent
  settled : d.Settled
  sized : d.Sized
  faultless : d.display.fault = none
  still : 0 < n → d.playback.playing = false

theorem Poised.initial (timing : Timing) (store : σ) :
    (Device.initial timing store : Device size σ φ).Poised 0 :=
  ⟨.initial timing store, .initial timing store, .initial timing store, rfl, fun _ => rfl⟩

/-- From `d` to `w` only the animation has gone on. -/
structure Drift (n : Nat) (d w : Device size σ φ) : Prop where
  poised : w.Poised n
  playing : w.playback.playing = d.playback.playing
  releases : w.display.releases = d.display.releases
  pixels : w.buffers.first.take n = d.buffers.first.take n

theorem Poised.drift (h : d.Poised n) : Drift n d d :=
  ⟨h, rfl, rfl, rfl⟩

theorem Drift.trans {u : Device size σ φ} (h : Drift n d w) (h' : Drift n w u) : Drift n d u where
  poised := h'.poised
  playing := h'.playing.trans h.playing
  releases := h'.releases.trans h.releases
  pixels := h'.pixels.trans h.pixels

theorem Poised.tornDown (h : d.Poised n) (hp : d.playback.playing = false) : d.TornDown :=
  h.coherent.tornDown h.settled hp

/-- Where an animation plays no pixels wait. -/
theorem Poised.pixels_nil (h : d.Poised n) (hp : d.playback.playing = true) (b : Bytes) :
    b.take n = [] := by
  have hn : n = 0 := by
    rcases Nat.eq_zero_or_pos n with h0 | hpos
    · exact h0
    · rw [h.still hpos] at hp
      cases hp
  rw [hn, List.take_zero]

theorem Poised.congr (h : d.Poised n) (hp : w.playback = d.playback) (hl : w.loader = d.loader)
    (hs : w.startSignal = d.startSignal) (he : w.leftSignal = true → d.leftSignal = true)
    (hf : w.file = d.file) (hw : w.Sized) (hfault : w.display.fault = d.display.fault) :
    w.Poised n where
  coherent := h.coherent.congr hp hl hs he (congrArg _ hf)
  settled := by
    unfold Settled
    rw [hp, hf]
    exact h.settled
  sized := hw
  faultless := hfault.trans h.faultless
  still hn := by rw [hp, h.still hn]

theorem Poised.zero (h : d.Poised n) : d.Poised 0 :=
  ⟨h.coherent, h.settled, h.sized, h.faultless, fun hn => absurd hn (Nat.lt_irrefl 0)⟩

theorem Poised.look (h : d.Poised n) (p : Pause) : Drift n d (d.arrived p).2 := by
  obtain hw | ⟨-, hw⟩ := d.arrived_eq p
  · rw [hw]
    exact h.drift
  · rw [hw]
    exact ⟨h.congr rfl rfl rfl (fun he => by cases he) rfl h.sized rfl, rfl, rfl, rfl⟩

/-! ## Showing a frame -/

theorem present_faultless (h : d.display.fault = none) (frame : Bytes) :
    d.present frame =
      (.ok (), { d with display := { d.display with frames := d.display.frames ++ [frame] } }) := by
  have hshow : d.display.present frame =
      (.ok (), { d.display with frames := d.display.frames ++ [frame] }) := by
    unfold Display.present
    simp only [h]
  unfold present
  rw [hshow]

/-- Bytes for a whole frame leave nothing of what was in their buffer. -/
theorem Sized.get_fill (hd : d.Sized) {bytes : Bytes} (hb : bytes.length = size) (i : Slot) :
    (d.fill i bytes).buffers.get i = bytes := by
  have hdrop : (d.buffers.get i).drop (0 + bytes.length) = [] := by
    apply List.drop_eq_nil_of_le
    exact Nat.le_of_eq (by rw [hd i, Nat.zero_add, hb])
  unfold Device.fill
  rw [FrameBuffers.get_set_self, Bytes.overlay, hdrop, List.take_zero, List.nil_append,
    List.append_nil]

theorem Sized.present_fill (hd : d.Sized) (h : d.display.fault = none) {bytes : Bytes}
    (hb : bytes.length = size) (i : Slot) :
    (d.fill i bytes).present ((d.fill i bytes).buffers.get i) =
      (.ok (), { d.fill i bytes with
        display := { d.display with frames := d.display.frames ++ [bytes] } }) := by
  have hfault : (d.fill i bytes).display.fault = none := h
  rw [hd.get_fill hb i]
  exact present_faultless hfault bytes

theorem writeRaw_store (cursor : Nat) (pixels : Bytes) (d : Device size σ φ) :
    (Device.writeRaw cursor pixels d).2.store = d.store := by
  obtain ⟨b, frames, hw⟩ := d.writeRaw_eq cursor pixels
  rw [hw]

theorem arrived_store (d : Device size σ φ) (p : Pause) : (d.arrived p).2.store = d.store := by
  obtain ⟨b, h⟩ := d.arrived_rest p
  rw [h]

/-! ## The tasks -/

section

variable [FileStore σ φ δ]

/-- The tasks let go of nothing and do not make the panel refuse. -/
theorem aside_panel (d : Device size σ φ) (ha : a.OfTasks) :
    (a.apply d).2.display.fault = d.display.fault ∧
      (a.apply d).2.display.releases = d.display.releases := by
  have htick : d.tick.2.display.fault = d.display.fault ∧
      d.tick.2.display.releases = d.display.releases := by
    obtain ⟨-, h, -⟩ | ⟨-, h, -⟩ | ⟨-, -, -, h⟩ := d.tick_cases
    all_goals
      rw [h]
      exact ⟨rfl, rfl⟩
  cases a with
  | poll =>
    obtain ⟨t, f, b, p, l, s, e, ds, h, -⟩ := d.pollLoader_touches
    show d.pollLoader.display.fault = _ ∧ d.pollLoader.display.releases = _
    rw [h]
    exact ⟨rfl, rfl⟩
  | tick => exact htick
  | timer =>
    show d.pollTimer.display.fault = _ ∧ d.pollTimer.display.releases = _
    unfold pollTimer
    split
    · exact htick
    · exact ⟨rfl, rfl⟩
  | alter change => exact ha.elim
  | setFault fault => exact ha.elim

/-- The tasks neither begin an animation nor end one. -/
theorem aside_playing (hc : d.Coherent) (a : Aside σ) :
    (a.apply d).2.playback.playing = d.playback.playing := by
  have htick : d.tick.2.playback.playing = d.playback.playing := by
    obtain ⟨-, h, -⟩ | ⟨-, h, -⟩ | ⟨-, -, -, h⟩ := d.tick_cases
    · rw [h]
    · rw [h]
    · rw [h]
      rfl
  cases a with
  | poll =>
    show d.pollLoader.playback.playing = _
    obtain h | ⟨-, h⟩ | ⟨-, h⟩ := poll_playback hc
    all_goals rw [h]
  | tick => exact htick
  | timer =>
    show d.pollTimer.playback.playing = _
    unfold pollTimer
    split
    · exact htick
    · rfl
  | alter change => rfl
  | setFault fault => rfl

theorem TornDown.aside_buffers (h : d.TornDown) (a : Aside σ) :
    (a.apply d).2.buffers = d.buffers := by
  cases a with
  | poll => exact congrArg buffers h.poll
  | tick => exact congrArg (fun x => x.2.buffers) h.tick
  | timer =>
    show d.pollTimer.buffers = d.buffers
    unfold pollTimer
    rw [h.tick, ite_self]
    rfl
  | alter change => rfl
  | setFault fault => rfl

variable [Backed σ φ δ]

theorem Poised.aside (h : d.Poised n) (ha : a.OfTasks) : Drift n d (a.apply d).2 := by
  have hplaying := aside_playing h.coherent a
  obtain ⟨hfault, hreleases⟩ := d.aside_panel ha
  refine ⟨⟨h.coherent.aside a, h.settled.aside h.coherent a, h.sized.aside a,
    hfault.trans h.faultless, fun hn => hplaying.trans (h.still hn)⟩, hplaying, hreleases, ?_⟩
  by_cases hp : d.playback.playing = true
  · rw [h.pixels_nil hp, h.pixels_nil hp]
  · rw [(h.tornDown (Bool.eq_false_iff.mpr hp)).aside_buffers]

theorem Poised.resumes {p : Pause} (h : d.Poised n) (hw : Resumes Aside.OfTasks p d w) :
    Drift n d w :=
  hw.induct (P := Drift n d) (fun _ _ ha hm => hm.trans (hm.poised.aside ha))
    (fun _ hm => hm.trans (hm.poised.look p)) h.drift

end

/-! ## The end of an animation -/

structure Vacated (d w : Device size σ φ) : Prop where
  halted : Halted d w
  gone : w.playback.loaderActive = false
  sized : w.Sized
  faultless : w.display.fault = none

variable [FileStore σ φ δ]

theorem teardown_screen (d : Device size σ φ) (wasPlaying : Bool) :
    (d.teardown wasPlaying).buffers = d.buffers ∧
      (d.teardown wasPlaying).display.fault = d.display.fault ∧
      (d.teardown wasPlaying).display.frames = d.display.frames ∧
      (d.teardown wasPlaying).display.releases = d.display.releases + wasPlaying.toNat := by
  have hclose : d.closeAnimation.buffers = d.buffers ∧ d.closeAnimation.display = d.display := by
    unfold closeAnimation
    split
    · exact ⟨rfl, rfl⟩
    · exact ⟨rfl, rfl⟩
  obtain ⟨hbuffers, hdisplay⟩ := hclose
  unfold Device.teardown
  cases wasPlaying with
  | false => exact ⟨hbuffers, by rw [← hdisplay]; rfl, by rw [← hdisplay]; rfl,
      by rw [← hdisplay]; rfl⟩
  | true => exact ⟨hbuffers, by rw [← hdisplay]; rfl, by rw [← hdisplay]; rfl,
      by rw [← hdisplay]; rfl⟩

theorem Vacated.teardown (h : Vacated d w) (hd : d.Poised n) (k : Nat) :
    (w.teardown d.playback.playing).Poised k ∧
      (w.teardown d.playback.playing).playback.playing = false := by
  have hfile : d.file.isSome = d.playback.playing := (hd.settled.1.trans hd.settled.2).symm
  have hquit := h.halted.teardown hfile h.gone
  have hstill := hquit.tornDown.still
  refine ⟨⟨hquit.coherent, hquit.tornDown.settled, h.sized.teardown _, ?_, fun _ => hstill⟩, hstill⟩
  rw [(w.teardown_screen _).2.1]
  exact h.faultless

theorem launch_display (path : Bytes) (d : Device size σ φ) :
    (Device.launch path d).2.display = d.display := by
  have hbegin (w : Device size σ φ) (f : φ) (frames : Nat) :
      ((w.installFile f).beginSession frames).display = w.display := by
    unfold installFile
    split
    · rfl
    · rfl
  unfold Device.launch callStore
  dsimp only
  rcases FileStore.stat d.store path with ⟨_ | ⟨_ | _, length⟩, s⟩
  · rfl
  · dsimp only
    split
    · rfl
    rcases FileStore.openFile s path .reading with ⟨_ | f, s'⟩
    · rfl
    · exact hbegin _ f _
  · rfl

theorem Poised.vacated [Backed σ φ δ] {p : Pause} (h : d.Poised n) (hp : p = .acknowledgement)
    (hw : Resumes Aside.OfTasks p d.requestStop.2 w) : Vacated d w := by
  subst hp
  have hhalt : Halted d d.requestStop.2 := ⟨h.coherent.halt, rfl, rfl, rfl, rfl⟩
  refine ⟨hhalt.resumes hw, hw.gone, steady_sized.resumes hw h.sized, ?_⟩
  refine hw.induct (P := fun w => w.display.fault = none) (fun w a ha hf => ?_) (fun w hf => ?_)
    h.faultless
  · exact (w.aside_panel ha).1.trans hf
  · obtain ⟨b, h⟩ := w.arrived_rest .acknowledgement
    rw [h]
    exact hf

end Device

/-! ## Its store -/

namespace Likeness.Tolerant

open Device

variable [FileStore σ φ δ] {L : Likeness σ φ δ} {d : Device size σ φ} {s t : σ} {a : Aside σ}

/-- What the tasks do to one of two corresponding stores leaves them corresponding. -/
theorem aside_left (hT : L.Tolerant) (ha : a.OfTasks) (h : L.store d.store t) :
    L.store (a.apply d).2.store t := by
  refine ((hT.left t).aside ⟨h, fun _ _ => trivial⟩ ?_).carries.store
  rintro change rfl
  exact ha.elim

theorem aside_right (hT : L.Tolerant) (ha : a.OfTasks) (h : L.store s d.store) :
    L.store s (a.apply d).2.store := by
  refine ((hT.right s).aside ⟨h, fun _ _ => trivial⟩ ?_).carries.store
  rintro change rfl
  exact ha.elim

end Likeness.Tolerant

end PanelLink
