import PanelLink.Proofs.Progress

/-!
The handshake between the commands and the loader. At any moment the signals, the loader and the
playback fit together; whatever a poll or a tick does, they still do.
-/
namespace PanelLink

namespace Playback

/-- The load of the frame after the current one. -/
def job (p : Playback) : Job := ⟨p.nextFrame, p.nextSlot, p.session⟩

/-- A report counts for nothing, or the next frame is ready from then on. -/
theorem deliver_cases (p : Playback) (session : UInt32) (ok : Bool) :
    (p.deliver session ok).2 = p ∨
    (ok = true ∧ p.playing = true ∧ (p.deliver session ok).2 = { p with ready := true }) := by
  unfold deliver
  split
  · exact .inl rfl
  · rename_i h
    simp only [Bool.or_eq_true, not_or, Bool.not_eq_true', Bool.not_eq_false] at h
    exact .inr ⟨h.1.1.1, h.1.2, rfl⟩

/-- After the current frame comes one of the animation. -/
theorem nextFrame_lt {p : Playback} (h : p.currentFrame < p.frameCount) :
    p.nextFrame < p.frameCount :=
  Nat.mod_lt _ (by omega)

end Playback

namespace FrameBuffers

theorem set_get (b : FrameBuffers) (i : Slot) : b.set i (b.get i) = b := by
  cases i <;> rfl

end FrameBuffers

namespace Device

variable {size : Nat} {σ φ δ : Type}

/-- The loader has a session exactly when it was told of one or is in one, and then a file is open.
A queued job is the one that the playback asks for. -/
structure Coherent (d : Device size σ φ) : Prop where
  engaged : d.playback.loaderActive = true ↔ d.startSignal = true ∨ d.loader ≠ .asleep
  told : d.startSignal = true → d.loader = .asleep
  left : d.leftSignal = true → d.playback.loaderActive = false
  playing : d.playback.playing = true →
    d.playback.loaderActive = true ∧ d.playback.stopping = false
  file : d.playback.loaderActive = true → d.file.isSome = true
  current : d.playback.playing = true → d.playback.currentFrame < d.playback.frameCount
  ready : d.playback.ready = true → d.playback.playing = true
  queued : ∀ job, d.loader = .queued job → d.playback.playing = true →
    d.playback.ready = false ∧ job = d.playback.job

/-- An animation plays, the loader has a session and a file is open; or none of the three holds. -/
def Settled (d : Device size σ φ) : Prop :=
  d.playback.playing = d.playback.loaderActive ∧ d.playback.loaderActive = d.file.isSome

/-- No animation is left: no session, no signal and no file. -/
structure TornDown (d : Device size σ φ) : Prop where
  asleep : d.loader = .asleep
  untold : d.startSignal = false
  still : d.playback.playing = false
  gone : d.playback.loaderActive = false
  closed : d.file = none

theorem TornDown.congr {d w : Device size σ φ} (h : d.TornDown) (hp : w.playback = d.playback)
    (hl : w.loader = d.loader) (hs : w.startSignal = d.startSignal) (hf : w.file = d.file) :
    w.TornDown where
  asleep := hl.trans h.asleep
  untold := hs.trans h.untold
  still := by rw [hp, h.still]
  gone := by rw [hp, h.gone]
  closed := hf.trans h.closed

theorem Coherent.initial (timing : Timing) (store : σ) :
    (Device.initial timing store : Device size σ φ).Coherent where
  engaged := by simp [Device.initial, Playback.initial]
  told h := by simp [Device.initial] at h
  left h := by simp [Device.initial] at h
  playing h := by simp [Device.initial, Playback.initial] at h
  file h := by simp [Device.initial, Playback.initial] at h
  current h := by simp [Device.initial, Playback.initial] at h
  ready h := by simp [Device.initial, Playback.initial] at h
  queued job h := by simp [Device.initial] at h

theorem Settled.initial (timing : Timing) (store : σ) :
    (Device.initial timing store : Device size σ φ).Settled := ⟨rfl, rfl⟩

/-- Without a session the loader sleeps, and no start is on its way. -/
theorem Coherent.asleep_of_not_active {d : Device size σ φ} (h : d.Coherent)
    (ha : d.playback.loaderActive = false) : d.loader = .asleep ∧ d.startSignal = false := by
  have hn : ¬(d.startSignal = true ∨ d.loader ≠ .asleep) := fun h' => by
    simp [h.engaged.mpr h'] at ha
  simpa [and_comm] using not_or.mp hn

/-- Settled without an animation is torn down. -/
theorem Coherent.tornDown {d : Device size σ φ} (h : d.Coherent) (hs : d.Settled)
    (hp : d.playback.playing = false) : d.TornDown := by
  have ha : d.playback.loaderActive = false := hs.1 ▸ hp
  obtain ⟨hl, hu⟩ := h.asleep_of_not_active ha
  exact ⟨hl, hu, hp, ha, by simpa [ha] using hs.2.symm⟩

theorem Coherent.congr {d d' : Device size σ φ} (h : d.Coherent) (hp : d'.playback = d.playback)
    (hl : d'.loader = d.loader) (hs : d'.startSignal = d.startSignal)
    (he : d'.leftSignal = true → d.leftSignal = true) (hf : d'.file.isSome = d.file.isSome) :
    d'.Coherent where
  engaged := by rw [hp, hl, hs]; exact h.engaged
  told := by rw [hl, hs]; exact h.told
  left hd := by rw [hp]; exact h.left (he hd)
  playing := by rw [hp]; exact h.playing
  file := by rw [hp, hf]; exact h.file
  current := by rw [hp]; exact h.current
  ready := by rw [hp]; exact h.ready
  queued := by rw [hp, hl]; exact h.queued

/-! ## The frame timer -/

/-- A tick shows nothing and changes nothing, or the panel takes the buffer that is ready. -/
theorem tick_cases (d : Device size σ φ) :
    (d.tick.1 = .idle ∧ d.tick.2 = d ∧ d.playback.playing = false) ∨
    (d.tick.1 = .skipped ∧ d.tick.2 = d ∧ d.playback.playing = true) ∨
    (d.tick.1 = .presented d.playback.advance.1 ∧ d.playback.playing = true ∧
      d.playback.ready = true ∧ d.tick.2 =
        { d with
          playback := d.playback.advance.2
          display := { d.display with
            frames := d.display.frames ++ [d.buffers.get d.playback.nextSlot] } }) := by
  unfold tick
  cases hp : d.playback.playing with
  | false => simp
  | true =>
    simp only [Bool.not_true, Bool.false_eq_true, if_false, Playback.readySlot?, hp,
      Bool.true_and]
    cases hr : (!d.playback.stopping && d.playback.ready) with
    | false => simp
    | true =>
      have hready : d.playback.ready = true := (Bool.and_eq_true_iff.mp hr).2
      simp only [if_true, present, Display.present]
      cases d.display.fault <;> simp [hready]

/-! ## The loader -/

section Loader

variable [FileStore σ φ δ]

/-- Loading touches the store, the position in the file and the buffer of the job. -/
theorem loadFrame_eq (d : Device size σ φ) (job : Job) :
    ∃ t f b, (d.loadFrame job).2 =
        { d with store := t, file := f, buffers := d.buffers.set job.slot b } ∧
      f.isSome = d.file.isSome := by
  unfold loadFrame
  cases hf : d.file with
  | none =>
    refine ⟨d.store, d.file, d.buffers.get job.slot, ?_, by simp [hf]⟩
    rw [FrameBuffers.set_get]
  | some f =>
    rcases hs : FileStore.seek d.store f (.start (frameOffset size job.frame)) with ⟨_ | _, f', t⟩
    · refine ⟨t, some f', d.buffers.get job.slot, ?_, rfl⟩
      simp only [hs, FrameBuffers.set_get]
    · simp only [hs]
      exact ⟨_, some _, _, rfl, rfl⟩

/-- A job that is done touches besides the playback, and there only whether a frame is ready. -/
theorem perform_eq (d : Device size σ φ) (job : Job) :
    ∃ t f b, (d.perform job).2 =
        { d with
          store := t
          file := f
          buffers := d.buffers.set job.slot b
          playback := (d.playback.deliver job.session (d.loadFrame job).1).2 } ∧
      f.isSome = d.file.isSome := by
  obtain ⟨t, f, b, h, hf⟩ := d.loadFrame_eq job
  refine ⟨t, f, b, ?_, hf⟩
  unfold perform
  rcases hl : d.loadFrame job with ⟨ok, w⟩
  rw [hl] at h
  subst h
  rfl

/-- A duty of the loader touches no more than that, its own state and the signals. -/
theorem serve_touches (d : Device size σ φ) :
    ∃ t f b p l s e ds, d.serve =
        { d with
          store := t
          file := f
          buffers := b
          playback := p
          loader := l
          startSignal := s
          leftSignal := e
          delays := ds } ∧
      f.isSome = d.file.isSome := by
  unfold serve
  dsimp only
  split
  · exact ⟨_, d.file, _, _, _, _, _, _, rfl, rfl⟩
  · exact ⟨_, d.file, _, _, _, _, _, _, rfl, rfl⟩
  · split
    · exact ⟨_, d.file, _, _, _, _, _, _, rfl, rfl⟩
    · rename_i job _ _
      obtain ⟨t, f, b, hw, hf⟩ :=
        ({ d with playback := d.playback.duty.2 } : Device size σ φ).perform_eq job
      rw [hw]
      exact ⟨_, f, _, _, _, _, _, _, rfl, hf⟩

theorem pollLoader_touches (d : Device size σ φ) :
    ∃ t f b p l s e ds, d.pollLoader =
        { d with
          store := t
          file := f
          buffers := b
          playback := p
          loader := l
          startSignal := s
          leftSignal := e
          delays := ds } ∧
      f.isSome = d.file.isSome := by
  unfold pollLoader
  split
  · split
    · obtain ⟨t, f, b, p, l, s, e, ds, hw, hf⟩ :=
        ({ d with startSignal := false } : Device size σ φ).serve_touches
      rw [hw]
      exact ⟨t, f, b, p, l, s, e, ds, rfl, hf⟩
    · exact ⟨_, d.file, _, _, _, _, _, _, rfl, rfl⟩
  · exact d.serve_touches
  · rename_i job _
    split
    · exact ⟨_, d.file, _, _, _, _, _, _, rfl, rfl⟩
    · obtain ⟨t, f, b, hw, hf⟩ := d.perform_eq job
      rcases hperform : d.perform job with ⟨_ | _, w⟩
      · rw [hperform] at hw
        dsimp only at hw ⊢
        rw [hw]
        exact ⟨_, f, _, _, _, _, _, _, rfl, hf⟩
      · rw [hperform] at hw
        obtain ⟨t', f', b', p, l, s, e, ds, hserve, hf'⟩ := w.serve_touches
        dsimp only at hw ⊢
        rw [hserve, hw]
        rw [hw] at hf'
        exact ⟨t', f', b', p, l, s, e, ds, rfl, hf'.trans hf⟩

theorem perform_deliver (d : Device size σ φ) (job : Job) :
    (d.perform job).2.playback = (d.playback.deliver job.session (d.loadFrame job).1).2 := by
  obtain ⟨t, f, b, hw, -⟩ := d.perform_eq job
  rw [hw]

/-- Without an animation a job that is done counts for nothing. -/
theorem perform_playback {d : Device size σ φ} (h : d.playback.playing = false) (job : Job) :
    (d.perform job).2.playback = d.playback := by
  rw [perform_deliver]
  simp [Playback.deliver, h]

def awake (d : Device size σ φ) : Device size σ φ :=
  { d with startSignal := false }

def leave (d : Device size σ φ) : Device size σ φ :=
  { d with playback := { d.playback with loaderActive := false } }.leaveSession

@[simp] theorem awake_playback (d : Device size σ φ) : d.awake.playback = d.playback := rfl

@[simp] theorem awake_held (d : Device size σ φ) : d.awake.held = d.held := rfl

@[simp] theorem awake_leave (d : Device size σ φ) : d.awake.leave = d.leave := rfl

/-- What one poll of the loader can do. -/
inductive Polled (d : Device size σ φ) : Device size σ φ → Prop
  | still : Polled d d
  | leave : d.playback.playing = false → Polled d d.leave
  /-- A job in hand was for nothing. -/
  | leaveAfter (job : Job) : d.playback.playing = false → Polled d (d.perform job).2.leave
  | retry (job : Job) : d.playback.playing = false → d.loader ≠ .asleep →
      Polled d (d.perform job).2.restLoader
  | rest : d.playback.playing = true → d.playback.ready = true → Polled d d.awake.restLoader
  | queue : d.playback.playing = true → d.playback.ready = false → d.held = true →
      Polled d { d.awake with loader := .queued d.playback.job }
  | load : d.playback.playing = true → d.playback.ready = false → d.held = false →
      Polled d (d.awake.perform d.playback.job).2.restLoader

/-- An animation that plays has frames and is not about to end. -/
theorem Coherent.underWay {d : Device size σ φ} (hc : d.Coherent)
    (hp : d.playback.playing = true) :
    d.playback.stopping = false ∧ d.playback.frameCount ≠ 0 :=
  ⟨(hc.playing hp).2, Nat.ne_of_gt (Nat.zero_lt_of_lt (hc.current hp))⟩

/-- What the loader turns to. -/
theorem serve_eq (d : Device size σ φ)
    (h : d.playback.playing = true → d.playback.stopping = false ∧ d.playback.frameCount ≠ 0) :
    d.serve =
      if d.playback.playing then
        if d.playback.ready then d.restLoader
        else if d.held then { d with loader := .queued d.playback.job }
        else (d.perform d.playback.job).2.restLoader
      else d.leave := by
  have hduty : d.playback.duty =
      if d.playback.playing then
        if d.playback.ready then (.rest, d.playback) else (.load d.playback.job, d.playback)
      else (.leave, { d.playback with loaderActive := false }) := by
    unfold Playback.duty
    by_cases hp : d.playback.playing = true
    · obtain ⟨hs, hn⟩ := h hp
      simp [hp, hs, hn, Playback.job]
    · simp [hp]
  unfold serve
  rw [hduty]
  by_cases hp : d.playback.playing = true
  · by_cases hr : d.playback.ready = true
    · simp only [hp, hr, if_true]
    · simp only [hp, hr, if_true]
      rfl
  · rw [if_neg hp, if_neg hp]
    rfl

theorem polled_serve {d : Device size σ φ} (hc : d.Coherent) : Polled d d.awake.serve := by
  rw [serve_eq d.awake hc.underWay, awake_playback, awake_held, awake_leave]
  by_cases hp : d.playback.playing = true
  · by_cases hr : d.playback.ready = true
    · rw [if_pos hp, if_pos hr]
      exact .rest hp hr
    · rw [if_pos hp, if_neg hr]
      by_cases hh : d.held = true
      · rw [if_pos hh]
        exact .queue hp (by simpa using hr) hh
      · rw [if_neg hh]
        exact .load hp (by simpa using hr) (by simpa using hh)
  · rw [if_neg hp]
    exact .leave (by simpa using hp)

theorem awake_eq {d : Device size σ φ} (h : d.startSignal = false) : d.awake = d := by
  unfold awake
  rw [← h]

theorem Coherent.awake_eq {d : Device size σ φ} (hc : d.Coherent) (h : d.loader ≠ .asleep) :
    d.awake = d :=
  Device.awake_eq (Bool.eq_false_iff.mpr fun hs => h (hc.told hs))

/-- A frame that was read for the session is ready. -/
theorem perform_ready {d : Device size σ φ} (hc : d.Coherent) (hp : d.playback.playing = true)
    (h : (d.perform d.playback.job).1 = true) :
    (d.perform d.playback.job).2.playback = { d.playback with ready := true } := by
  have hok : (d.loadFrame d.playback.job).1 = true := h
  rw [perform_deliver, hok]
  simp [Playback.deliver, Playback.job, hp, (hc.playing hp).2]

theorem polled {d : Device size σ φ} (hc : d.Coherent) : Polled d d.pollLoader := by
  unfold pollLoader
  split
  · split
    · exact polled_serve hc
    · exact .still
  · rename_i hl
    have hserve := polled_serve hc
    rwa [hc.awake_eq (by simp [hl])] at hserve
  · rename_i job hl
    have ha : d.awake = d := hc.awake_eq (by simp [hl])
    by_cases hh : d.held = true
    · rw [if_pos hh]
      exact .still
    rw [if_neg hh]
    -- A job that waited for the store may have outlived its animation.
    by_cases hp : d.playback.playing = true
    · obtain ⟨hr, rfl⟩ := hc.queued job hl hp
      have hload := Polled.load hp hr (by simpa using hh)
      rw [ha] at hload
      rcases hw : d.perform d.playback.job with ⟨_ | _, w⟩
      · simpa only [hw] using hload
      · have hpw : w.playback = { d.playback with ready := true } := by
          simpa only [hw] using perform_ready hc hp (by rw [hw])
        rw [hw] at hload
        show Polled d w.serve
        rw [serve_eq w (by rw [hpw]; exact hc.underWay)]
        simpa only [hpw, hp, if_true] using hload
    · have hp : d.playback.playing = false := by simpa using hp
      rcases hw : d.perform job with ⟨_ | _, w⟩
      · simpa only [hw] using Polled.retry job hp (by simp [hl])
      · have hpw : w.playback = d.playback := by simpa only [hw] using perform_playback hp job
        show Polled d w.serve
        rw [serve_eq w (by rw [hpw]; exact hc.underWay)]
        simpa [hpw, hp, hw] using Polled.leaveAfter job hp

theorem Coherent.leave {d : Device size σ φ} (hp : d.playback.playing = false)
    (hr : d.playback.ready = false) : d.leave.Coherent where
  engaged := by simp [Device.leave, leaveSession]
  told _ := rfl
  left _ := rfl
  playing h := by simp [Device.leave, leaveSession, hp] at h
  file h := by simp [Device.leave, leaveSession] at h
  current h := by simp [Device.leave, leaveSession, hp] at h
  ready h := by simp [Device.leave, leaveSession, hr] at h
  queued job h := by simp [Device.leave, leaveSession] at h

theorem Coherent.not_ready {d : Device size σ φ} (hc : d.Coherent)
    (hp : d.playback.playing = false) : d.playback.ready = false :=
  Bool.eq_false_iff.mpr fun h => by simp [hc.ready h] at hp

/-- The loader rests in a session. -/
theorem Coherent.rest {d : Device size σ φ} (hc : d.Coherent)
    (ha : d.playback.loaderActive = true) : d.awake.restLoader.Coherent where
  engaged := by simp [ha, restLoader, delay]
  told h := by simp [awake, restLoader, delay] at h
  left h := hc.left h
  playing h := hc.playing h
  file h := hc.file h
  current h := hc.current h
  ready h := hc.ready h
  queued job h := by simp [restLoader, delay] at h

/-- Whatever came of a job, the loader rests after it. -/
theorem Coherent.loaded {d : Device size σ φ} (hc : d.Coherent)
    (ha : d.playback.loaderActive = true) (job : Job) :
    (d.awake.perform job).2.restLoader.Coherent := by
  obtain ⟨t, f, b, hw, hf⟩ := d.awake.perform_eq job
  rw [hw]
  obtain hp | ⟨-, hp, hr⟩ := d.awake.playback.deliver_cases job.session (d.awake.loadFrame job).1
  · rw [hp]
    exact (hc.rest ha).congr rfl rfl rfl id hf
  · rw [hr]
    have hrest := hc.rest ha
    exact {
      engaged := hrest.engaged
      told := hrest.told
      left := hrest.left
      playing := hrest.playing
      file := fun h => hf.trans (hrest.file h)
      current := hrest.current
      ready := fun _ => hp
      queued := fun _ h _ => by simp [restLoader, delay] at h }

/-- The loader keeps to the handshake. -/
theorem Coherent.poll {d : Device size σ φ} (hc : d.Coherent) : d.pollLoader.Coherent := by
  have hpoll := polled hc
  generalize d.pollLoader = w at hpoll
  cases hpoll with
  | still => exact hc
  | leave hp => exact .leave hp (hc.not_ready hp)
  | leaveAfter job hp =>
    have hw := perform_playback hp job
    exact .leave (by rw [hw]; exact hp) (by rw [hw]; exact hc.not_ready hp)
  | retry job hp hl =>
    have hd : d.awake = d := hc.awake_eq hl
    simpa only [hd] using hc.loaded (hc.engaged.mpr (.inr hl)) job
  | rest hp _ => exact hc.rest (hc.playing hp).1
  | queue hp hr _ =>
    exact {
      engaged := by simp [(hc.playing hp).1]
      told := fun h => by simp [awake] at h
      left := hc.left
      playing := hc.playing
      file := hc.file
      current := hc.current
      ready := hc.ready
      queued := fun job h _ => ⟨hr, (Loader.queued.inj h).symm⟩ }
  | load hp _ _ => exact hc.loaded (hc.playing hp).1 _

theorem TornDown.poll {d : Device size σ φ} (h : d.TornDown) : d.pollLoader = d := by
  unfold pollLoader
  simp [h.asleep, h.untold]

theorem tick_still {d : Device size σ φ} (h : d.playback.playing = false) :
    d.tick = (.idle, d) := by
  unfold Device.tick
  simp [h]

theorem TornDown.tick {d : Device size σ φ} (h : d.TornDown) : d.tick = (.idle, d) :=
  tick_still h.still

/-- What a poll can change about an animation: the next frame becomes ready, or the session ends
that nothing plays in. -/
theorem poll_playback {d : Device size σ φ} (hc : d.Coherent) :
    d.pollLoader.playback = d.playback ∨
    (d.playback.playing = true ∧ d.pollLoader.playback = { d.playback with ready := true }) ∨
    (d.playback.playing = false ∧
      d.pollLoader.playback = { d.playback with loaderActive := false }) := by
  have hpoll := polled hc
  generalize d.pollLoader = w at hpoll
  cases hpoll with
  | still => exact .inl rfl
  | leave hp => exact .inr (.inr ⟨hp, rfl⟩)
  | leaveAfter job hp =>
    refine .inr (.inr ⟨hp, ?_⟩)
    show { (d.perform job).2.playback with loaderActive := false } = _
    rw [perform_playback hp job]
  | retry job hp _ => exact .inl (perform_playback hp job)
  | rest _ _ => exact .inl rfl
  | queue _ _ _ => exact .inl rfl
  | load hp _ _ =>
    obtain ⟨t, f, b, hw, -⟩ := d.awake.perform_eq d.playback.job
    rw [hw]
    obtain h | ⟨-, -, h⟩ :=
      d.awake.playback.deliver_cases d.playback.job.session (d.awake.loadFrame d.playback.job).1
    · exact .inl h
    · exact .inr (.inl ⟨hp, h⟩)

/-- A poll leaves the panel alone and the file of the animation open. -/
theorem poll_display {d : Device size σ φ} (hc : d.Coherent) :
    d.pollLoader.display = d.display ∧ d.pollLoader.file.isSome = d.file.isSome := by
  have hperform (d : Device size σ φ) (job : Job) :
      (d.perform job).2.display = d.display ∧ (d.perform job).2.file.isSome = d.file.isSome := by
    obtain ⟨t, f, b, hw, hf⟩ := d.perform_eq job
    rw [hw]
    exact ⟨rfl, hf⟩
  have hpoll := polled hc
  generalize d.pollLoader = w at hpoll
  cases hpoll with
  | still => exact ⟨rfl, rfl⟩
  | leave _ => exact ⟨rfl, rfl⟩
  | leaveAfter job _ => exact hperform d job
  | retry job _ _ => exact hperform d job
  | rest _ _ => exact ⟨rfl, rfl⟩
  | queue _ _ _ => exact ⟨rfl, rfl⟩
  | load _ _ _ => exact hperform d.awake _

theorem Settled.poll {d : Device size σ φ} (hs : d.Settled) (hc : d.Coherent) :
    d.pollLoader.Settled := by
  by_cases hp : d.playback.playing = true
  · obtain h | ⟨-, h⟩ | ⟨hn, -⟩ := poll_playback hc
    · exact ⟨by rw [h]; exact hs.1, by rw [h, (poll_display hc).2]; exact hs.2⟩
    · exact ⟨by rw [h]; exact hs.1, by rw [h, (poll_display hc).2]; exact hs.2⟩
    · exact absurd hp (by simp [hn])
  · rw [(hc.tornDown hs (by simpa using hp)).poll]
    exact hs

end Loader

/-! ## All that goes on beside a command -/

section Asides

theorem Coherent.tick {d : Device size σ φ} (hc : d.Coherent) : d.tick.2.Coherent := by
  obtain ⟨-, h, -⟩ | ⟨-, h, -⟩ | ⟨-, hp, hr, h⟩ := d.tick_cases
  · rwa [h]
  · rwa [h]
  have hcur := hc.current hp
  have hn : d.playback.frameCount ≠ 0 := by omega
  rw [h]
  exact {
    engaged := hc.engaged
    told := hc.told
    left := hc.left
    playing := hc.playing
    file := hc.file
    current := fun _ => by
      show (if d.playback.frameCount = 0 then d.playback.currentFrame else d.playback.nextFrame) <
        d.playback.frameCount
      rw [if_neg hn]
      exact Playback.nextFrame_lt hcur
    ready := fun h => by simp [Playback.advance] at h
    queued := fun job hl _ => by simp [(hc.queued job hl hp).1] at hr }

theorem Settled.tick {d : Device size σ φ} (hs : d.Settled) : d.tick.2.Settled := by
  obtain ⟨-, h, -⟩ | ⟨-, h, -⟩ | ⟨-, -, -, h⟩ := d.tick_cases <;>
    rw [h] <;>
    exact hs

variable [FileStore σ φ δ]

theorem Coherent.aside {d : Device size σ φ} (hc : d.Coherent) (a : Aside σ) :
    (a.apply d).2.Coherent := by
  cases a with
  | poll => exact hc.poll
  | tick => exact hc.tick
  | timer =>
    show d.pollTimer.Coherent
    unfold pollTimer
    split
    · exact hc.tick.congr rfl rfl rfl id rfl
    · exact hc.congr rfl rfl rfl id rfl
  | alter change => exact hc.congr rfl rfl rfl id rfl
  | setFault fault => exact hc.congr rfl rfl rfl id rfl

theorem Settled.aside {d : Device size σ φ} (hs : d.Settled) (hc : d.Coherent) (a : Aside σ) :
    (a.apply d).2.Settled := by
  cases a with
  | poll => exact hs.poll hc
  | tick => exact hs.tick
  | timer =>
    show d.pollTimer.Settled
    unfold pollTimer
    split
    · exact hs.tick
    · exact hs
  | alter change => exact hs
  | setFault fault => exact hs

/-- Looking whether a pause is over takes at most the loader's signal. -/
theorem arrived_eq (d : Device size σ φ) (p : Pause) :
    (d.arrived p).2 = d ∨
    (p = .acknowledgement ∧ (d.arrived p).2 = { d with leftSignal := false }) := by
  cases p with
  | delivery => exact .inl rfl
  | acknowledgement =>
    show d.takeLeft.2 = d ∨ _
    unfold takeLeft
    split
    · rename_i h
      exact .inr ⟨rfl, by simp only [arrived, takeLeft, if_pos h]⟩
    · exact .inl rfl

theorem arrived_rest (d : Device size σ φ) (p : Pause) :
    ∃ b, (d.arrived p).2 = { d with leftSignal := b } := by
  obtain h | ⟨-, h⟩ := d.arrived_eq p
  · exact ⟨d.leftSignal, h⟩
  · exact ⟨false, h⟩

theorem TornDown.look {d : Device size σ φ} (h : d.TornDown) (p : Pause) :
    (d.arrived p).2.TornDown := by
  obtain ⟨b, hd⟩ := d.arrived_rest p
  rw [hd]
  exact h.congr rfl rfl rfl rfl

/-- No aside opens or closes the file of the animation. -/
theorem aside_file (d : Device size σ φ) (a : Aside σ) :
    (a.apply d).2.file.isSome = d.file.isSome := by
  have htick : d.tick.2.file = d.file := by
    obtain ⟨-, h, -⟩ | ⟨-, h, -⟩ | ⟨-, -, -, h⟩ := d.tick_cases <;> rw [h]
  cases a with
  | poll =>
    obtain ⟨t, f, b, p, l, s, e, ds, h, hf⟩ := d.pollLoader_touches
    show d.pollLoader.file.isSome = _
    rw [h]
    exact hf
  | tick => exact congrArg Option.isSome htick
  | timer =>
    show d.pollTimer.file.isSome = _
    unfold pollTimer
    split
    · exact congrArg Option.isSome htick
    · rfl
  | alter change => rfl
  | setFault fault => rfl

theorem Resumes.file {ok : Aside σ → Prop} {p : Pause} {d w : Device size σ φ}
    (h : Resumes ok p d w) : w.file.isSome = d.file.isSome := by
  refine h.induct (P := fun w => w.file.isSome = d.file.isSome) (fun w a _ hw => ?_)
    (fun w hw => ?_) rfl
  · exact (w.aside_file a).trans hw
  · obtain ⟨b, h⟩ := w.arrived_rest p
    rw [h]
    exact hw

theorem Coherent.arrived {d : Device size σ φ} (hc : d.Coherent) (p : Pause) :
    (d.arrived p).2.Coherent := by
  obtain h | ⟨-, h⟩ := d.arrived_eq p
  · rwa [h]
  · rw [h]
    exact hc.congr rfl rfl rfl (by simp) rfl

/-- What a wait ends with: the loader has left, if it was the loader that was waited for. -/
theorem Resumes.gone {ok : Aside σ → Prop} {d d' : Device size σ φ}
    (h : Resumes ok .acknowledgement d d') : d'.playback.loaderActive = false := by
  induction h with
  | @ended d d' h =>
    simp only [Device.arrived, takeLeft] at h
    split at h
    · simp only [Prod.mk.injEq, Bool.not_eq_true'] at h
      obtain ⟨h, rfl⟩ := h
      exact h
    · simp at h
  | look _ _ ih => exact ih
  | aside _ _ _ ih => exact ih

end Asides

end Device

end PanelLink
