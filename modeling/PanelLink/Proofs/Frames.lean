import PanelLink.Proofs.Contents
import PanelLink.Proofs.Orderly
import PanelLink.Proofs.Steady

/-!
What an animation shows: one frame after the other, each as its file had it when it was read, whole
and unmixed, whatever fails on the way.
-/
namespace PanelLink

variable {size chunk : Nat} {σ φ δ ε : Type}

/-! ## The size of the buffers -/

namespace Device

/-- Each buffer is as long as a frame. -/
def Sized (d : Device size σ φ) : Prop :=
  ∀ i, (d.buffers.get i).length = size

theorem Sized.initial (timing : Timing) (store : σ) :
    (initial timing store : Device size σ φ).Sized := by
  intro i
  cases i <;> exact List.length_replicate

theorem Sized.set {b : FrameBuffers} (h : ∀ i, (b.get i).length = size) {bytes : Bytes}
    (hb : bytes.length = size) (i j : Slot) : ((b.set i bytes).get j).length = size := by
  by_cases hij : i = j
  · subst hij
    rw [FrameBuffers.get_set_self, hb]
  · rw [FrameBuffers.get_set_of_ne b bytes hij]
    exact h j

theorem Sized.fill {d : Device size σ φ} (h : d.Sized) {bytes : Bytes} (hb : bytes.length ≤ size)
    (i : Slot) : (d.fill i bytes).Sized := by
  refine Sized.set h ?_ i
  rw [Bytes.length_overlay, h i]
  rw [h i]
  omega

variable [FileStore σ φ δ] [Backed σ φ δ]

theorem Sized.loadFrame {d : Device size σ φ} (h : d.Sized) (job : Job) :
    (d.loadFrame job).2.Sized := by
  unfold Device.loadFrame
  split
  · exact h
  split
  · exact h
  · exact Sized.fill h (Backed.length_gather_le _ _ _ _) job.slot

theorem Sized.perform {d : Device size σ φ} (h : d.Sized) (job : Job) :
    (d.perform job).2.Sized :=
  h.loadFrame job

theorem Sized.serve {d : Device size σ φ} (h : d.Sized) : d.serve.Sized := by
  unfold Device.serve
  dsimp only
  split
  · exact h
  · exact h
  · split
    · exact h
    · show (Device.perform _ _).2.Sized
      exact Sized.perform (by exact h) _

theorem Sized.poll {d : Device size σ φ} (h : d.Sized) : d.pollLoader.Sized := by
  unfold pollLoader
  split
  · split
    · exact Sized.serve h
    · exact h
  · exact h.serve
  · rename_i job _
    split
    · exact h
    have hw := h.perform job
    split
    · rename_i hp
      rw [hp] at hw
      exact hw.serve
    · rename_i hp
      rw [hp] at hw
      exact hw

theorem Sized.tick {d : Device size σ φ} (h : d.Sized) : d.tick.2.Sized := by
  obtain ⟨-, ht, -⟩ | ⟨-, ht, -⟩ | ⟨-, -, -, ht⟩ := d.tick_cases <;>
    rw [ht] <;>
    exact h

theorem Sized.aside {d : Device size σ φ} (h : d.Sized) (a : Aside σ) : (a.apply d).2.Sized := by
  cases a with
  | poll => exact h.poll
  | tick => exact h.tick
  | timer =>
    show d.pollTimer.Sized
    unfold pollTimer
    split
    · exact h.tick
    · exact h
  | alter change => exact h
  | setFault fault => exact h

theorem Sized.look {d : Device size σ φ} (h : d.Sized) (p : Pause) : (d.arrived p).2.Sized := by
  obtain ⟨b, hw⟩ := d.arrived_rest p
  rw [hw]
  exact h

omit [Backed σ φ δ] in
theorem Sized.teardown {d : Device size σ φ} (h : d.Sized) (wasPlaying : Bool) :
    (d.teardown wasPlaying).Sized := by
  have hc : d.closeAnimation.Sized := by
    unfold closeAnimation
    split <;> exact h
  unfold Device.teardown
  split
  · exact hc
  · exact hc

omit [Backed σ φ δ] in
theorem Sized.launch {d : Device size σ φ} (h : d.Sized) (path : Bytes) :
    (Device.launch path d).2.Sized := by
  have hbegin {w : Device size σ φ} (f : φ) (n : Nat) (hw : w.Sized) :
      ((w.installFile f).beginSession n).Sized := by
    unfold installFile
    split <;> exact hw
  unfold Device.launch callStore
  dsimp only
  rcases FileStore.stat d.store path with ⟨_ | ⟨_ | _, length⟩, s⟩
  · exact h
  · dsimp only
    split
    · exact h
    · rcases FileStore.openFile s path .reading with ⟨_ | f, s'⟩
      · exact h
      · exact hbegin f _ (by exact h)
  · exact h

/-- An image has no more bytes than fit, and zeros behind them. -/
theorem Sized.showFile {d : Device size σ φ} (h : d.Sized) (path : Bytes) :
    (Device.showFile path d).2.Sized := by
  unfold Device.showFile callStore
  dsimp only
  rcases FileStore.openFile d.store path .reading with ⟨_ | f, s⟩
  · exact h
  have hlen := Backed.length_gather_le size size s f
  have hread (t : σ) : (({ d with store := t } : Device size σ φ).fill .first
      (FileStore.readFull s f size).1.bytes).Sized := Sized.fill h hlen .first
  dsimp only
  split
  · exact hread _
  · exact hread _
  · split
    · exact hread _
    · have hpad : (Bytes.padTo size (FileStore.readFull s f size).1.bytes).length ≤ size := by
        rw [Bytes.length_padTo]
        exact Nat.max_le.mpr ⟨Nat.le_refl _, hlen⟩
      have hshow := Sized.fill (hread (FileStore.closeFile (FileStore.readFull s f size).2.2
        (FileStore.readFull s f size).2.1).2) hpad .first
      split
      · rename_i hp
        obtain ⟨frames, rfl⟩ := present_eq hp
        exact hshow
      · rename_i hp
        obtain ⟨frames, rfl⟩ := present_eq hp
        exact hshow

theorem Sized.writeRaw {d : Device size σ φ} (h : d.Sized) (cursor : Nat) (pixels : Bytes) :
    (Device.writeRaw cursor pixels d).2.Sized := by
  have hframe : (Bytes.overlay (min cursor size) (pixels.take (size - min cursor size))
      (d.buffers.get .first)).length = size := by
    rw [Bytes.length_overlay, h .first]
    rw [h .first, List.length_take]
    omega
  have hset := Sized.set h hframe .first
  unfold Device.writeRaw
  dsimp only
  split
  · split
    · rename_i hp
      obtain ⟨frames, rfl⟩ := present_eq hp
      exact hset
    · rename_i hp
      obtain ⟨frames, rfl⟩ := present_eq hp
      exact hset
  · exact hset

theorem steady_sized : Steady (Sized : Device size σ φ → Prop) where
  store _ h := h
  held _ h := h
  aside a h := h.aside a
  look p h := h.look p
  requestStop h := h
  teardown wasPlaying h := h.teardown wasPlaying
  launch path h := h.launch path
  showFile path h := h.showFile path
  writeRaw cursor pixels h := h.writeRaw cursor pixels

/-! ## Loading one frame -/

/-- Loading stays in the file of the animation. -/
theorem loadFrame_file {d : Device size σ φ} {f : φ} (hf : d.file = some f) (job : Job) :
    ∃ f', (d.loadFrame job).2.file = some f' ∧ (Backed.file σ f').key = (Backed.file σ f).key := by
  obtain ⟨-, hkey, -⟩ := Backed.seek_tree d.store f (.start (frameOffset size job.frame))
  unfold Device.loadFrame
  rw [hf]
  dsimp only
  rcases hs : FileStore.seek d.store f (.start (frameOffset size job.frame)) with ⟨_ | _, f', s⟩
  · rw [hs] at hkey
    exact ⟨f', rfl, hkey⟩
  · rw [hs] at hkey
    obtain ⟨-, hkey'⟩ := Backed.gather_tree size size s f'
    exact ⟨_, rfl, hkey'.trans hkey⟩

/-- A frame that was loaded is all of it what the file held. -/
theorem loadFrame_ok {d : Device size σ φ} (hd : d.Sized) (hsize : 0 < size) {job : Job}
    (hroom : frameOffset size job.frame + size ≤ Bytes.wordLimit) (h : (d.loadFrame job).1 = true) :
    ∃ f contents, d.file = some f ∧
      Backed.node? d.store (Backed.file σ f).key = some (.file contents) ∧
      (d.loadFrame job).2.buffers.get job.slot =
        Volume.slice contents (frameOffset size job.frame) size ∧
      (Volume.slice contents (frameOffset size job.frame) size).length = size := by
  unfold Device.loadFrame at h ⊢
  cases hf : d.file with
  | none => simp [hf] at h
  | some f =>
    obtain ⟨htree, hkey, -, hpos⟩ :=
      Backed.seek_tree d.store f (.start (frameOffset size job.frame))
    simp only [hf] at h ⊢
    rcases hs : FileStore.seek d.store f (.start (frameOffset size job.frame)) with ⟨_ | n, f', s⟩
    · simp [hs] at h
    rw [hs] at htree hkey hpos
    simp only [hs, Bool.and_eq_true, beq_iff_eq] at h
    have hlen : (FileStore.gather size size s f').1.bytes.length = size := h.2
    have hread := Backed.gather_bytes size (s := s) (f := f') (by rwa [hpos n _ rfl rfl])
    obtain hnil | ⟨contents, hc, hb⟩ := hread
    · rw [hnil] at hlen
      exact absurd hlen (Nat.ne_of_lt hsize)
    · rw [hlen, hpos n _ rfl rfl] at hb
      refine ⟨f, contents, rfl, ?_, ?_, by rw [← hb, hlen]⟩
      · rw [Backed.node?, ← htree, ← hkey]
        exact hc
      · show ((d.buffers.set job.slot _).get job.slot) = _
        rw [FrameBuffers.get_set_self, ← hb]
        show Bytes.overlay 0 (FileStore.gather size size s f').1.bytes (d.buffers.get job.slot) = _
        have hdrop : (d.buffers.get job.slot).drop size = [] :=
          List.drop_eq_nil_of_le (Nat.le_of_eq (hd job.slot))
        simp [Bytes.overlay, hlen, hdrop]

private theorem perform_file {d : Device size σ φ} {f : φ} (hf : d.file = some f) (job : Job) :
    ∃ f', (d.perform job).2.file = some f' ∧ (Backed.file σ f').key = (Backed.file σ f).key :=
  loadFrame_file hf job

/-- A poll stays in the file of the animation, whatever comes of it. -/
theorem poll_file {d : Device size σ φ} (hc : d.Coherent) {f : φ} (hf : d.file = some f) :
    ∃ f', d.pollLoader.file = some f' ∧ (Backed.file σ f').key = (Backed.file σ f).key := by
  have hpoll := polled hc
  generalize d.pollLoader = w at hpoll
  cases hpoll with
  | still => exact ⟨f, hf, rfl⟩
  | leave _ => exact ⟨f, hf, rfl⟩
  | leaveAfter job _ => exact perform_file hf job
  | retry job _ _ => exact perform_file hf job
  | rest _ _ => exact ⟨f, hf, rfl⟩
  | queue _ _ _ => exact ⟨f, hf, rfl⟩
  | load _ _ _ =>
    have hawake : d.awake.file = some f := hf
    exact perform_file hawake _

/-- A poll while an animation plays leaves a frame that is ready as it is; one that was not becomes
ready only when all of it was read. -/
theorem poll_ready {d : Device size σ φ} (hc : d.Coherent) (hd : d.Sized) (hsize : 0 < size)
    (hroom : frameOffset size d.playback.nextFrame + size ≤ Bytes.wordLimit)
    (hp : d.playback.playing = true) :
    (d.pollLoader.playback = d.playback ∧
      (d.playback.ready = true → d.pollLoader.buffers = d.buffers)) ∨
    (d.playback.ready = false ∧ d.pollLoader.playback = { d.playback with ready := true } ∧
      ∃ f contents, d.file = some f ∧
        Backed.node? d.store (Backed.file σ f).key = some (.file contents) ∧
        d.pollLoader.buffers.get d.playback.nextSlot =
          Volume.slice contents (frameOffset size d.playback.nextFrame) size ∧
        (Volume.slice contents (frameOffset size d.playback.nextFrame) size).length = size) := by
  have hpoll := polled hc
  generalize d.pollLoader = w at hpoll
  cases hpoll with
  | still => exact .inl ⟨rfl, fun _ => rfl⟩
  | leave hn => simp [hn] at hp
  | leaveAfter job hn => simp [hn] at hp
  | retry job hn _ => simp [hn] at hp
  | rest _ _ => exact .inl ⟨rfl, fun _ => rfl⟩
  | queue _ _ _ => exact .inl ⟨rfl, fun _ => rfl⟩
  | load _ hr _ =>
    have hw : (d.awake.perform d.playback.job).2.restLoader.playback = _ :=
      d.awake.perform_deliver d.playback.job
    obtain h | ⟨hok, -, h⟩ :=
      d.awake.playback.deliver_cases d.playback.job.session (d.awake.loadFrame d.playback.job).1
    · exact .inl ⟨hw.trans h, by simp [hr]⟩
    · have hsized : d.awake.Sized := hd
      exact .inr ⟨hr, hw.trans h, loadFrame_ok hsized hsize hroom hok⟩

/-! ## The frame to come -/

/-- The animation at `path` has `frames` frames, and has shown `shown` frames in turn. -/
structure Projects (path : Bytes) (frames shown : Nat) (d : Device size σ φ) : Prop where
  count : d.playback.frameCount = frames
  next : d.playback.nextFrame = shown % frames
  file : ∃ f, d.file = some f ∧ Volume.key path = .ok (Backed.file σ f).key

def Holds (d : Device size σ φ) (contents : Bytes) (frame : Nat) : Prop :=
  d.buffers.get d.playback.nextSlot = Volume.slice contents (frameOffset size frame) size ∧
    (Volume.slice contents (frameOffset size frame) size).length = size

theorem Projects.congr {path : Bytes} {n k : Nat} {d w : Device size σ φ} (h : Projects path n k d)
    (hp : w.playback = d.playback) (hf : w.file = d.file) : Projects path n k w where
  count := by rw [hp, h.count]
  next := by rw [hp, h.next]
  file := by rw [hf]; exact h.file

theorem Projects.poll {path : Bytes} {n k : Nat} {d : Device size σ φ} (h : Projects path n k d)
    (hc : d.Coherent) : Projects path n k d.pollLoader where
  count := by
    obtain hp | ⟨-, hp⟩ | ⟨-, hp⟩ := poll_playback hc <;> rw [hp] <;> exact h.count
  next := by
    obtain hp | ⟨-, hp⟩ | ⟨-, hp⟩ := poll_playback hc <;> rw [hp] <;> exact h.next
  file := by
    obtain ⟨f, hf, hk⟩ := h.file
    obtain ⟨f', hf', hk'⟩ := poll_file hc hf
    exact ⟨f', hf', by rw [hk', hk]⟩

/-- The frame that is presented is the one whose turn it is. -/
theorem Projects.advance {path : Bytes} {n k : Nat} {d : Device size σ φ} (h : Projects path n k d)
    (hn : n ≠ 0) : d.playback.advance.1 = k % n ∧
      d.playback.advance.2.nextFrame = (k + 1) % n ∧ d.playback.advance.2.frameCount = n := by
  have hframe : d.playback.advance.1 = k % n := by
    show (if d.playback.frameCount = 0 then _ else _) = _
    rw [if_neg (by rw [h.count]; exact hn), h.next]
  refine ⟨hframe, ?_, h.count⟩
  show (d.playback.advance.1 + 1) % d.playback.frameCount = _
  rw [hframe, h.count, Nat.mod_add_mod]

/-- The animation that a start began has shown nothing yet, and all of its frames are within reach
of a seek. -/
theorem Opened.projects {path : Bytes} {n : Nat} {f : φ} (h : Opened size σ path n f)
    {w d : Device size σ φ} (hp : w.playback = d.playback.start n) (hf : w.file = some f) :
    Projects path n 0 w ∧ n ≠ 0 ∧ 0 < size ∧ n * size < Bytes.wordLimit := by
  obtain ⟨s, s₁, s₂, length, hstat, hopen, hn, hpos⟩ := h
  have hlt : length < Bytes.wordLimit := Backed.stat_size_lt hstat
  have hsize : 0 < size := by
    rcases Nat.eq_zero_or_pos size with rfl | h
    · simp [hn] at hpos
    · exact h
  refine ⟨⟨by rw [hp]; rfl, ?_, f, hf, ?_⟩, hpos, hsize, ?_⟩
  · rw [hp]
    show (n - 1 + 1) % n = 0 % n
    rw [Nat.sub_add_cancel (Nat.pos_of_ne_zero hpos), Nat.mod_self, Nat.zero_mod]
  · have hv := Backed.openFile_ok hopen
    obtain ⟨e, he⟩ | ⟨k, hk, -, ⟨c, -, -, he⟩ | ⟨c, -, ht, -⟩ | ⟨-, hc, -⟩⟩ :=
      (Backed.volume s₁).openFile_cases path .reading
    · simp [he] at hv
    · rw [he] at hv
      simp only [Prod.mk.injEq, Except.ok.injEq] at hv
      rw [hk, ← hv.1]
      rfl
    · simp [OpenFlags.reading] at ht
    · simp [OpenFlags.reading] at hc
  · have hle := Nat.div_mul_le_self length size
    rw [← hn] at hle
    omega

end Device

end PanelLink
