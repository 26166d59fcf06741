import Mathlib.Data.List.Induction
import PanelLink.Proofs.Projection
import PanelLink.Proofs.Steady

/-!
The buffer on screen. While an animation plays, one buffer holds the frame that is shown and the
other the one after it; the loader writes only to the other, and commands to neither until the
animation is torn down.
-/
namespace PanelLink

open Device Handler

variable {size chunk : Nat} {σ φ δ ε α : Type}

/-! ## The loader -/

namespace Device

/-- The next frame does not go into the buffer on screen. -/
def Apart (d : Device size σ φ) : Prop :=
  d.playback.nextSlot ≠ d.playback.currentSlot

/-- Neither does a queued job. -/
def Away (d : Device size σ φ) : Prop :=
  ∀ job, d.loader = .queued job → job.slot ≠ d.playback.currentSlot

variable [FileStore σ φ δ]

theorem perform_buffers (d : Device size σ φ) {job : Job} {i : Slot} (h : job.slot ≠ i) :
    (d.perform job).2.buffers.get i = d.buffers.get i := by
  obtain ⟨t, f, b, hw, -⟩ := d.perform_eq job
  rw [hw]
  exact FrameBuffers.get_set_of_ne _ b h

theorem serve_buffers (d : Device size σ φ) {i : Slot} (h : d.playback.nextSlot ≠ i) :
    d.serve.buffers.get i = d.buffers.get i := by
  have hduty {job : Job} (hload : d.playback.duty.1 = .load job) :
      job.slot = d.playback.nextSlot := by
    unfold Playback.duty at hload
    split at hload
    · cases hload
    split at hload
    · cases hload
    · rw [← Duty.load.inj hload]
  unfold serve
  dsimp only
  split
  · rfl
  · rfl
  · rename_i job hload
    split
    · rfl
    · have hslot : job.slot ≠ i := by
        rw [hduty hload]
        exact h
      exact perform_buffers { d with playback := d.playback.duty.2 } hslot

theorem perform_slots (d : Device size σ φ) (job : Job) :
    (d.perform job).2.playback.currentSlot = d.playback.currentSlot ∧
      (d.perform job).2.playback.nextSlot = d.playback.nextSlot := by
  rw [perform_deliver]
  obtain h | ⟨-, -, h⟩ := d.playback.deliver_cases job.session (d.loadFrame job).1 <;>
    rw [h] <;>
    exact ⟨rfl, rfl⟩

private theorem serve_slots (d : Device size σ φ) :
    d.serve.playback.currentSlot = d.playback.currentSlot ∧
      d.serve.playback.nextSlot = d.playback.nextSlot := by
  have hduty : d.playback.duty.2.currentSlot = d.playback.currentSlot ∧
      d.playback.duty.2.nextSlot = d.playback.nextSlot := by
    unfold Playback.duty
    split
    · exact ⟨rfl, rfl⟩
    · split <;> exact ⟨rfl, rfl⟩
  unfold serve
  dsimp only
  split
  · exact hduty
  · exact hduty
  · rename_i job _
    split
    · exact hduty
    · obtain ⟨hcurrent, hnext⟩ :=
        perform_slots ({ d with playback := d.playback.duty.2 } : Device size σ φ) job
      exact ⟨hcurrent.trans hduty.1, hnext.trans hduty.2⟩

/-- The loader does not exchange the buffers. -/
theorem poll_slots (d : Device size σ φ) :
    d.pollLoader.playback.currentSlot = d.playback.currentSlot ∧
      d.pollLoader.playback.nextSlot = d.playback.nextSlot := by
  unfold pollLoader
  split
  · split
    · exact serve_slots { d with startSignal := false }
    · exact ⟨rfl, rfl⟩
  · exact d.serve_slots
  · rename_i job _
    have hperform := d.perform_slots job
    split
    · exact ⟨rfl, rfl⟩
    · split <;> rename_i w hw <;> rw [hw] at hperform
      · exact ⟨w.serve_slots.1.trans hperform.1, w.serve_slots.2.trans hperform.2⟩
      · exact hperform

/-- The loader writes to no buffer but the next one, and the one of the job that it has in hand. -/
theorem poll_buffers (d : Device size σ φ) {i : Slot} (h : d.playback.nextSlot ≠ i)
    (hjob : ∀ job, d.loader = .queued job → job.slot ≠ i) :
    d.pollLoader.buffers.get i = d.buffers.get i := by
  unfold pollLoader
  split
  · split
    · exact serve_buffers { d with startSignal := false } h
    · rfl
  · exact d.serve_buffers h
  · rename_i job hl
    have hperform := d.perform_buffers (hjob job hl)
    have hnext := (d.perform_slots job).2
    split
    · rfl
    · split <;> rename_i w hw <;> rw [hw] at hperform hnext
      · rw [w.serve_buffers (by rwa [hnext]), hperform]
      · exact hperform

/-- A frame is ready only when the loader has no load to do. -/
theorem Coherent.unqueued {d : Device size σ φ} (hc : d.Coherent) {i : Slot}
    (h : d.playback.readySlot? = some i) :
    i = d.playback.nextSlot ∧ ∀ job, d.loader ≠ .queued job := by
  unfold Playback.readySlot? at h
  split at h
  · rename_i hready
    simp only [Bool.and_eq_true, Bool.not_eq_true'] at hready
    obtain ⟨⟨hplaying, -⟩, hready⟩ := hready
    refine ⟨(Option.some.inj h).symm, fun job hl => ?_⟩
    have hnot := (hc.queued job hl hplaying).1
    rw [hready] at hnot
    cases hnot
  · cases h

theorem Apart.congr {d w : Device size σ φ} (h : d.Apart) (hp : w.playback = d.playback) :
    w.Apart := by
  unfold Apart
  rw [hp]
  exact h

theorem Apart.tick {d : Device size σ φ} (h : d.Apart) : d.tick.2.Apart := by
  obtain ⟨-, hw, -⟩ | ⟨-, hw, -⟩ | ⟨-, -, -, hw⟩ := d.tick_cases <;> rw [hw]
  · exact h
  · exact h
  · exact Ne.symm h

theorem steady_apart : Steady (Apart : Device size σ φ → Prop) where
  store _ h := h
  held _ h := h
  aside {d} a h := by
    cases a with
    | poll =>
      obtain ⟨hcurrent, hnext⟩ := d.poll_slots
      show d.pollLoader.playback.nextSlot ≠ d.pollLoader.playback.currentSlot
      rw [hcurrent, hnext]
      exact h
    | tick => exact h.tick
    | timer =>
      show d.pollTimer.Apart
      unfold pollTimer
      split
      · exact h.tick
      · exact h
    | alter change => exact h
    | setFault fault => exact h
  look {d} p h := by
    obtain ⟨b, hw⟩ := d.arrived_rest p
    rw [hw]
    exact h
  requestStop h := h
  teardown {d} wasPlaying h := by
    have hclose : d.closeAnimation.playback = d.playback := by
      unfold closeAnimation
      split <;> rfl
    unfold Device.teardown
    split <;> exact h.congr hclose
  launch {d} path h := by
    have hbegin (w : Device size σ φ) (f : φ) (n : Nat) :
        ((w.installFile f).beginSession n).Apart := Slot.noConfusion
    unfold Device.launch callStore
    dsimp only
    rcases FileStore.stat d.store path with ⟨_ | ⟨_ | _, length⟩, s⟩
    · exact h
    · dsimp only
      split
      · exact h
      · rcases FileStore.openFile s path .reading with ⟨_ | f, s'⟩
        · exact h
        · exact hbegin _ f _
    · exact h
  showFile {d} path h := by
    obtain ⟨t, b, frames, hw⟩ := d.showFile_eq path
    rw [hw]
    exact h
  writeRaw {d} cursor pixels h := by
    obtain ⟨b, frames, hw⟩ := d.writeRaw_eq cursor pixels
    rw [hw]
    exact h

/-! ## The commands -/

/-- An animation that plays in `v` plays on in `w`, with the same buffers. -/
def Unmoved (v w : Device size σ φ) : Prop :=
  v.playback.playing = true → w.playback = v.playback ∧ w.buffers = v.buffers

def Suspended : Pause → Device size σ φ → Device size σ φ → Prop
  | .delivery, v, w => Unmoved v w
  | .acknowledgement, v, w => w = v.requestStop.2

theorem Unmoved.refl (d : Device size σ φ) : Unmoved d d :=
  fun _ => ⟨rfl, rfl⟩

theorem Unmoved.of_still {v w : Device size σ φ} (h : v.playback.playing = false) : Unmoved v w :=
  fun hp => by
    rw [h] at hp
    cases hp

variable {ok : Aside σ → Prop}

/-- What comes after a stop finds nothing that plays. -/
theorem Coherent.stop_suspended {d : Device size σ φ} (hc : d.Coherent)
    {Q : Device size σ φ → α → Device size σ φ → Prop}
    {f : Bool → Device size σ φ → Run (Device size σ φ) α}
    (hf : ∀ v b w, v.playback.playing = false → (f b w).Meets (Resumes ok) Suspended Q v) :
    ((Device.stop d).bind f).Meets (Resumes ok) Suspended Q d := by
  by_cases ha : d.playback.loaderActive = true
  · have hhalt : Halted d d.requestStop.2 := ⟨hc.halt, rfl, rfl, rfl, rfl⟩
    rw [hc.stop_eq ha]
    exact ⟨rfl, fun w hw => hf w _ _ (hhalt.resumes hw).still⟩
  · have hstill : d.playback.playing = false :=
      Bool.eq_false_iff.mpr fun hp => ha (hc.playing hp).1
    rw [Device.stop_eq, if_neg ha]
    exact hf d _ _ hstill

theorem Coherent.start_suspended {d : Device size σ φ} (hc : d.Coherent) (path : Bytes) :
    (Device.start path d).Meets (Resumes ok) Suspended
      (fun v _ _ => v.playback.playing = false) d :=
  hc.stop_suspended fun _ _ _ hv => hv

theorem Coherent.showStill_suspended {d : Device size σ φ} (hc : d.Coherent) (path : Bytes) :
    (Device.showStill path d).Meets (Resumes ok) Suspended
      (fun v _ _ => v.playback.playing = false) d :=
  hc.stop_suspended fun _ _ _ hv => hv

end Device

namespace Handler

variable [FileStore σ φ δ] {ok : Aside σ → Prop}

def StaysUnmoved : Assertion size chunk σ φ ε :=
  fun v _ d => Unmoved v d

def BeganStill : Assertion size chunk σ φ ε :=
  fun v _ _ => v.playback.playing = false

theorem staysUnmoved_plain : KeptByPlain (Resumes ok) Suspended
    fun _ : CommandHandle φ δ => (StaysUnmoved : Assertion size chunk σ φ ε) where
  pause h _ := ⟨h, fun w _ => .refl w⟩
  outbox _ h := h
  held _ h := h
  cwd _ h := h
  clock _ h := h
  openFile _ h := by split <;> exact h
  create _ h := by split <;> exact h
  closeFile h := h
  read _ h := h
  openDir _ h := by split <;> exact h
  readDir h := h
  closeDir h := h
  mkdir _ h := h
  usedBlocks h := h

private theorem staysUnmoved_free : Free (StaysUnmoved : Assertion size chunk σ φ ε) :=
  fun _ _ _ _ _ _ h => h

private theorem beganStill_free : Free (BeganStill : Assertion size chunk σ φ ε) :=
  fun _ _ _ _ _ _ h => h

private theorem staysUnmoved_execute (p : Packet) {s : Serving chunk φ ε} {d : Device size σ φ}
    (hc : d.Coherent) :
    (on (execute p) s d).Meets (Resumes ok) Suspended (fun v _ w => Unmoved v w) d := by
  have hkeeps {h : Handler size chunk σ φ ε Reply}
      (hk : Keeps (Resumes ok) Suspended StaysUnmoved h) :
      (on h s d).Meets (Resumes ok) Suspended (fun v _ w => Unmoved v w) d :=
    (hk d s d (.refl d)).imp fun v x w hx => by
      obtain ⟨_ | _, _⟩ := x <;> exact hx
  by_cases hplain : p.command.plain = true
  · exact hkeeps (staysUnmoved_plain.plain p hplain)
  by_cases hbrief : p.command.brief = true
  · exact hkeeps (staysUnmoved_free.brief p hbrief)
  unfold execute
  cases hcommand : p.command with
  | format =>
    rw [on_format]
    refine hc.stop_suspended fun v b w hv => ?_
    have hwipe : Keeps (Resumes ok) Suspended (BeganStill : Assertion size chunk σ φ ε) wipe :=
      beganStill_free.wipe fun _ _ _ _ h => h
    exact (hwipe v s w hv).imp fun v x w hx => .of_still (by obtain ⟨_ | _, _⟩ := x <;> exact hx)
  | chooseImage =>
    rw [on_chooseImage]
    split
    · exact .refl d
    split
    · rw [Run.meets_bind]
      exact (hc.start_suspended _).imp fun v x w hv => .of_still hv
    · rw [Run.meets_bind]
      exact (hc.showStill_suspended _).imp fun v x w hv => .of_still hv
  | writeDisplay =>
    rw [on_writeDisplay]
    split
    · exact .refl d
    split
    · refine hc.stop_suspended fun v b w hv => ?_
      rw [on_paint]
      exact .of_still hv
    · rename_i hp
      rw [on_paint]
      exact .of_still (by simpa using hp)
  | _ => simp [Command.plain, Command.brief, hcommand] at hplain hbrief

end Handler

/-- Whatever is asked for, an animation that plays is not moved, or is asked to stop and no more. -/
theorem Request.suspended [FileStore σ φ δ] {ok : Aside σ → Prop} (e : Endpoint chunk φ)
    (r : Request ε) {d : Device size σ φ} (hc : d.Coherent) :
    (r.routine e d).Meets (Resumes ok) Suspended (fun v _ w => Unmoved v w) d := by
  cases r with
  | frame transport bytes =>
    rw [routine_frame, Run.meets_bind]
    refine staysUnmoved_plain.serve (P := fun v s w => v = d ∧ w = d)
      bytes (fun v s w h => by rw [StaysUnmoved, h.1, h.2]; exact .refl d) (fun p _ => ?_) d
      ⟨e, .empty transport⟩ d ⟨rfl, rfl⟩
    rintro v s w ⟨rfl, rfl⟩
    exact (staysUnmoved_execute p hc).imp fun v x w hx => by obtain ⟨_ | _, _⟩ := x <;> exact hx
  | stop => exact hc.stop_suspended fun v b w hv => .of_still hv
  | start path =>
    rw [routine_start, Run.meets_bind]
    exact (hc.start_suspended path).imp fun v x w hv => .of_still hv
  | showStill path =>
    rw [routine_showStill, Run.meets_bind]
    exact (hc.showStill_suspended path).imp fun v x w hv => .of_still hv
  | loadConfig => exact fun _ => ⟨rfl, rfl⟩

/-! ## Whole runs -/

namespace Device

variable [FileStore σ φ δ]

omit [FileStore σ φ δ] in
theorem tick_buffers (d : Device size σ φ) : d.tick.2.buffers = d.buffers := by
  obtain ⟨-, hw, -⟩ | ⟨-, hw, -⟩ | ⟨-, -, -, hw⟩ := d.tick_cases <;> rw [hw]

/-- Beside the commands nothing writes to the buffer on screen. -/
theorem aside_buffers {d : Device size σ φ} (hapart : d.Apart) (haway : d.Away) (x : Aside σ) :
    (x.apply d).2.buffers.get d.playback.currentSlot = d.buffers.get d.playback.currentSlot := by
  cases x with
  | poll => exact d.poll_buffers hapart haway
  | tick => exact congrArg (FrameBuffers.get · _) d.tick_buffers
  | timer =>
    show d.pollTimer.buffers.get _ = _
    unfold pollTimer
    split
    · exact congrArg (FrameBuffers.get · _) d.tick_buffers
    · rfl
  | alter change => rfl
  | setFault fault => rfl

/-- Where nothing plays the loader takes up no job. -/
theorem Coherent.aside_away {d : Device size σ φ} (hc : d.Coherent)
    (hp : d.playback.playing = false) (h : d.Away) (x : Aside σ) : (x.apply d).2.Away := by
  have htick : d.tick.2 = d := by
    obtain ⟨-, hw, -⟩ | ⟨-, hw, -⟩ | ⟨-, hplaying, -⟩ := d.tick_cases
    · exact hw
    · exact hw
    · simp [hp] at hplaying
  cases x with
  | poll =>
    obtain ⟨hcurrent, -⟩ := d.poll_slots
    show ∀ job, d.pollLoader.loader = .queued job → job.slot ≠ d.pollLoader.playback.currentSlot
    rw [hcurrent]
    have hpoll := polled hc
    generalize d.pollLoader = w at hpoll
    cases hpoll with
    | still => exact h
    | leave _ => exact fun _ hl => nomatch hl
    | leaveAfter job _ => exact fun _ hl => nomatch hl
    | retry job _ _ => exact fun _ hl => nomatch hl
    | rest hplaying => simp [hp] at hplaying
    | queue hplaying => simp [hp] at hplaying
    | load hplaying => simp [hp] at hplaying
  | tick =>
    show d.tick.2.Away
    rwa [htick]
  | timer =>
    show d.pollTimer.Away
    unfold pollTimer
    rw [htick, ite_self]
    exact h
  | alter change => exact h
  | setFault fault => exact h

end Device

namespace Scene

variable [FileStore σ φ δ]

/-- No tick writes to a buffer. -/
theorem act_ticked_buffers {s : Scene size chunk σ φ ε} {a : Action σ ε} {t : Tick}
    (h : (s.act a).1 = .ticked t) : (s.act a).2.device.buffers = s.device.buffers := by
  obtain ⟨x, rfl⟩ | ⟨r, e, d, run, ha⟩ | ⟨hq, -⟩ := s.act_cases a
  · cases x with
    | poll => cases h
    | tick => exact s.device.tick_buffers
    | timer =>
      show s.device.pollTimer.buffers = _
      unfold pollTimer
      split
      · exact s.device.tick_buffers
      · rfl
    | alter change => rfl
    | setFault fault => rfl
  · exact absurd h (ha.not_ticked t)
  · rw [hq] at h
    cases h

def Awaiting (s : Scene size chunk σ φ ε) : Prop :=
  ∃ r e k, s.hand = .busy r e .acknowledgement k

/-- The scene is orderly, and the command in hand does not touch an animation that plays. -/
structure Steered (s : Scene size chunk σ φ ε) : Prop where
  orderly : s.Orderly
  sound : s.Sound (fun _ => True) (fun _ d => d.Coherent ∧ d.Settled)
    (fun e r p v w => Paused e r p v w ∧ Suspended p v w)
    (fun e r v x w => Ended e r v x w ∧ Unmoved v w)

theorem routine_steered (r : Request ε) (e : Endpoint chunk φ) {d : Device size σ φ}
    (h : d.Coherent ∧ d.Settled) :
    (r.routine e d).Meets (Resumes fun _ => True) (fun p v w => Paused e r p v w ∧ Suspended p v w)
      (fun v x w => Ended e r v x w ∧ Unmoved v w) d :=
  (routine_animation e r h.1 h.2).and (r.suspended e h.1)

theorem Steered.initial (config : Config) (timing : Timing) (store : σ) :
    (initial config timing store : Scene size chunk σ φ ε).Steered where
  orderly := .initial config timing store
  sound := ⟨.initial timing store, .initial timing store⟩

theorem Steered.act {s : Scene size chunk σ φ ε} (hs : s.Steered) (a : Action σ ε) :
    (s.act a).2.Steered where
  orderly := hs.orderly.act a
  sound := sound_act hs.sound a (fun _ _ => trivial)
    (fun x _ _ _ h => ⟨h.1.aside x, h.2.aside h.1 x⟩) (fun r e _ h => routine_steered r e h)
    (fun _ _ _ _ _ _ h => ⟨h.1.atEnd.coherent, h.1.atEnd.settled⟩)

theorem Steered.after {s : Scene size chunk σ φ ε} (hs : s.Steered) (as : List (Action σ ε)) :
    (s.after as).Steered :=
  after_induct (fun _ => True) (fun _ a _ h => h.act a) (fun _ _ => trivial) hs

/-- What goes on with a command leaves it waiting for the loader, or has not moved what played. -/
theorem Steered.advance {s : Scene size chunk σ φ ε} (hs : s.Steered) {a r e d run}
    (h : s.Advances a r e d run) :
    ((s.act a).2.Awaiting ∧ (s.act a).2.device.playback = s.device.playback.halt ∧
      (s.act a).2.device.buffers = s.device.buffers ∧
      (s.act a).2.device.loader = s.device.loader) ∨
    (¬ (s.act a).2.Awaiting ∧ Unmoved s.device (s.act a).2.device) := by
  have hmeets := hs.sound.meets (fun r e _ h => routine_steered r e h) h
  obtain ⟨hplayback, hbuffers, -⟩ := h.device_eq
  have hunmoved {w : Device size σ φ} (hw : Unmoved d w) : Unmoved s.device w := by
    intro hp
    rw [← hplayback] at hp
    rw [← hplayback, ← hbuffers]
    exact hw hp
  have hloader : d.loader = s.device.loader := by
    obtain ⟨b, hd⟩ := h.device_rest
    rw [hd]
  rw [h.act_eq]
  obtain ⟨p, k, -, hhand, -, hT⟩ | ⟨x, e', -, hhand, -, hQ⟩ := settle_cases
    (T := fun e r p v w => Paused e r p v w ∧ Suspended p v w)
    (Q := fun e r v x w => Ended e r v x w ∧ Unmoved v w) hmeets
  · cases p with
    | delivery =>
      refine .inr ⟨?_, hunmoved hT⟩
      rintro ⟨r', e', k', hwait⟩
      rw [hhand] at hwait
      cases hwait
    | acknowledgement =>
      have hstopped : (settle r e run).2.device = d.requestStop.2 := hT
      refine .inl ⟨⟨r, e, k, hhand⟩, ?_, ?_, ?_⟩
      · rw [hstopped, ← hplayback]
        rfl
      · rw [hstopped, ← hbuffers]
        rfl
      · rw [hstopped, ← hloader]
        rfl
  · refine .inr ⟨?_, hunmoved hQ⟩
    rintro ⟨r', e', k', hwait⟩
    rw [hhand] at hwait
    cases hwait

/-- Without a wait for the loader, no animation means no session. -/
theorem Orderly.tornDown_of_still {s : Scene size chunk σ φ ε} (hs : s.Orderly)
    (hwait : ¬ s.Awaiting) (hp : s.device.playback.playing = false) : s.device.TornDown := by
  refine hs.coherent.tornDown ?_ hp
  cases hh : s.hand with
  | free e => exact hs.free hh
  | busy r e p k =>
    cases p with
    | delivery => exact hs.settled r e k hh
    | acknowledgement => exact absurd ⟨r, e, k, hh⟩ hwait

private theorem Steered.away_act {s : Scene size chunk σ φ ε} (hs : s.Steered) (h : s.device.Away)
    {a : Action σ ε} (hapart : (s.act a).2.device.Apart) : (s.act a).2.device.Away := by
  have horderly := hs.orderly.act a
  by_cases hplaying : (s.act a).2.device.playback.playing = true
  · intro job hl
    obtain ⟨-, rfl⟩ := horderly.coherent.queued job hl hplaying
    exact hapart
  have hstill := Bool.eq_false_iff.mpr hplaying
  by_cases hwait : (s.act a).2.Awaiting
  · -- The wait began before, or begins with the slots and the loader as they are.
    obtain ⟨x, rfl⟩ | ⟨r, e, d, run, ha⟩ | ⟨-, ha | ⟨r, e, p, k, -, -, ha⟩⟩ := s.act_cases a
    · obtain ⟨r, e, k, hh⟩ := hwait
      exact hs.orderly.coherent.aside_away (hs.orderly.halted r e k hh) h x
    · obtain ⟨-, hp, -, hl⟩ | ⟨hnot, -⟩ := hs.advance ha
      · unfold Away
        rw [hp, hl]
        exact h
      · exact absurd hwait hnot
    · rwa [ha]
    · rw [ha]
      obtain ⟨b, hd⟩ := s.device.arrived_rest p
      rw [hd]
      exact h
  · intro job hl
    rw [(horderly.tornDown_of_still hwait hstill).asleep] at hl
    cases hl

/-- No job that waits for the store is ever for the buffer on screen. -/
theorem away (config : Config) (timing : Timing) (store : σ) (as : List (Action σ ε)) :
    ((initial config timing store : Scene size chunk σ φ ε).after as).device.Away := by
  induction as using List.reverseRecOn with
  | nil => exact fun _ hl => nomatch hl
  | append_singleton as a ih =>
    have hsteered : ((initial config timing store : Scene size chunk σ φ ε).after as).Steered :=
      (Steered.initial config timing store).after as
    have hapart : ((initial config timing store : Scene size chunk σ φ ε).after
        (as ++ [a])).device.Apart := steady_apart.after Slot.noConfusion _
    rw [after_snoc] at hapart ⊢
    exact hsteered.away_act ih hapart

/-- The slot `b` holds `frame` and is on screen: it plays, or a stop waits for the loader. -/
structure Shows (s : Scene size chunk σ φ ε) (b : Slot) (frame : Bytes) : Prop where
  buffer : s.device.buffers.get b = frame
  current : s.device.playback.currentSlot = b
  lasting : s.device.playback.playing = true ∨ s.Awaiting

/-- Nothing but the next frame or the end of the animation takes a frame from the screen. -/
theorem Shows.act {s : Scene size chunk σ φ ε} {b : Slot} {frame : Bytes} (h : s.Shows b frame)
    (hs : s.Steered) (hapart : s.device.Apart) (haway : s.device.Away) {a : Action σ ε}
    (hq : ∀ n, (s.act a).1 ≠ .ticked (.presented n)) (hn : ¬ s.StopReturns a) :
    (s.act a).2.Shows b frame := by
  obtain ⟨hbuffer, hcurrent, hlasting⟩ := h
  obtain ⟨x, rfl⟩ | ⟨r, e, d, run, ha⟩ | ⟨-, ha | ⟨r, e, p, k, -, -, ha⟩⟩ := s.act_cases a
  · have hkept : (x.apply s.device).2.buffers.get b = s.device.buffers.get b := by
      rw [← hcurrent]
      exact aside_buffers hapart haway x
    have hslots : (x.apply s.device).2.playback.currentSlot = s.device.playback.currentSlot ∧
        (x.apply s.device).2.playback.playing = s.device.playback.playing := by
      by_cases hx : x = .poll
      · subst hx
        refine ⟨s.device.poll_slots.1, ?_⟩
        show s.device.pollLoader.playback.playing = _
        obtain hp | ⟨-, hp⟩ | ⟨-, hp⟩ := poll_playback hs.orderly.coherent <;> rw [hp]
      · obtain ⟨hp, -, -⟩ := aside_silent hx fun n => unpresented hq n
        rw [hp]
        exact ⟨rfl, rfl⟩
    constructor
    · exact hkept.trans hbuffer
    · exact hslots.1.trans hcurrent
    · exact hlasting.imp hslots.2.trans id
  · obtain hplaying | ⟨r', e', k, hwait⟩ := hlasting
    · obtain ⟨hwait, hp, hb, -⟩ | ⟨-, hunmoved⟩ := hs.advance ha
      · exact ⟨by rw [hb, hbuffer], by rw [hp]; exact hcurrent, .inr hwait⟩
      · obtain ⟨hp, hb⟩ := hunmoved hplaying
        exact ⟨by rw [hb, hbuffer], by rw [hp, hcurrent], .inl (by rw [hp, hplaying])⟩
    · cases ha with
      | request hfree =>
        rw [hwait] at hfree
        cases hfree
      | resume hbusy harrived =>
        rw [hwait] at hbusy
        cases hbusy
        exact absurd ⟨⟨_, _, _, hwait⟩, by rw [harrived]⟩ hn
  · rw [ha]
    exact ⟨hbuffer, hcurrent, hlasting⟩
  · rw [ha]
    obtain ⟨b, hd⟩ := s.device.arrived_rest p
    rw [hd]
    exact ⟨hbuffer, hcurrent, hlasting⟩

/-- The buffer on screen is not written to. At any moment one of the buffers is the current one and
the other the next; a poll of the loader leaves the current one alone and so will each job that the
loader has in hand, and when a tick can find the next one ready then the loader has no job at all.
The frame that a tick presents stays in its buffer until the next one is presented, or until the
stop of the animation returns. -/
theorem shown_buffer_untouched (config : Config) (timing : Timing) (store : σ)
    (as : List (Action σ ε)) :
    let s : Scene size chunk σ φ ε := (initial config timing store).after as
    let current := s.device.playback.currentSlot
    let next := s.device.playback.nextSlot
    ((current = .first ∧ next = .second) ∨ (current = .second ∧ next = .first)) ∧
    s.device.pollLoader.buffers.get current = s.device.buffers.get current ∧
    (∀ job, s.device.loader = .queued job → job.slot ≠ current) ∧
    (∀ b, s.device.playback.readySlot? = some b →
      b = next ∧ ∀ job, s.device.loader ≠ .queued job) ∧
    ∀ a n, (s.act a).1 = .ticked (.presented n) →
      (s.act a).2.device.playback.currentSlot = next ∧
      (s.act a).2.device.display.frames =
        s.device.display.frames ++ [(s.act a).2.device.buffers.get next] ∧
      ∀ bs, (s.act a).2.shown bs = [] →
        (∀ cs c, cs ++ [c] <+: bs → ¬ ((s.act a).2.after cs).StopReturns c) →
        ((s.act a).2.after bs).device.buffers.get next = (s.act a).2.device.buffers.get next := by
  intro s current next
  have hsteered (bs : List (Action σ ε)) : (s.after bs).Steered :=
    ((Steered.initial config timing store).after as).after bs
  have hapart (bs : List (Action σ ε)) : (s.after bs).device.Apart := by
    rw [← after_append]
    exact steady_apart.after Slot.noConfusion _
  have haway (bs : List (Action σ ε)) : (s.after bs).device.Away := by
    rw [← after_append]
    exact away config timing store (as ++ bs)
  refine ⟨?_, s.device.poll_buffers (hapart []) (haway []), haway [],
    fun b hb => (hsteered []).orderly.coherent.unqueued hb, fun a n ha => ?_⟩
  · have hne : next ≠ current := hapart []
    revert hne
    cases current <;> cases next <;> simp
  obtain ⟨hplaying, -, -, hp, -, hframes⟩ := act_presented ha
  have hbuffers : (s.act a).2.device.buffers = s.device.buffers := act_ticked_buffers ha
  have hcurrent : (s.act a).2.device.playback.currentSlot = next := by
    rw [hp]
    rfl
  refine ⟨hcurrent, by rw [hframes, hbuffers], fun bs hshown hstops => ?_⟩
  have hfirst : (s.act a).2.Shows next ((s.act a).2.device.buffers.get next) :=
    ⟨rfl, hcurrent, .inl (by rw [hp]; exact hplaying)⟩
  have hrun (bs : List (Action σ ε)) (hshown : (s.act a).2.shown bs = [])
      (hstops : ∀ cs c, cs ++ [c] <+: bs → ¬ ((s.act a).2.after cs).StopReturns c) :
      ((s.act a).2.after bs).Shows next ((s.act a).2.device.buffers.get next) := by
    induction bs using List.reverseRecOn with
    | nil => exact hfirst
    | append_singleton bs b ih =>
      rw [shown_snoc, List.append_eq_nil_iff] at hshown
      have hbefore :=
        ih hshown.1 fun cs c hcs => hstops cs c (hcs.trans (List.prefix_append bs [b]))
      rw [after_snoc]
      refine hbefore.act (hsteered (a :: bs)) (hapart (a :: bs)) (haway (a :: bs)) (fun m hm => ?_)
        (hstops bs b (List.prefix_refl _))
      rw [hm] at hshown
      cases hshown.2
  exact (hrun bs hshown hstops).buffer

end Scene

end PanelLink
