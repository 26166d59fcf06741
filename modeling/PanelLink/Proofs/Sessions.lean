import PanelLink.Proofs.Handshake

/-!
The state of an animation by itself. Its operations may come in any order, also as no player asks
for them: a swap while nothing plays, one start after another, reports of loads that are long over.
What holds of the state at any time, which frame every swap brings, and which reports count.
-/
namespace PanelLink.Playback

/-! ## Operations in any order -/

inductive Op where
  | start (frameCount : UInt32)
  | duty
  | deliver (session : UInt32) (ok : Bool)
  | readySlot
  | advance
  | halt
  deriving DecidableEq

def step (p : Playback) : Op → Playback
  | .start frameCount => p.start frameCount.toNat
  | .duty => p.duty.2
  | .deliver session ok => (p.deliver session ok).2
  | .readySlot => p
  | .advance => p.advance.2
  | .halt => p.halt

def after (p : Playback) (ops : List Op) : Playback :=
  ops.foldl step p

def Op.starts : Op → Bool
  | start _ => true
  | _ => false

def Op.advances : Op → Bool
  | advance => true
  | _ => false

variable {p q : Playback} {op : Op} {ops : List Op}

theorem after_cons (p : Playback) (op : Op) (ops : List Op) :
    p.after (op :: ops) = (p.step op).after ops := rfl

/-- The loader leaves, waits, or has the next frame to read. -/
theorem duty_cases (p : Playback) :
    p.duty = (.leave, { p with loaderActive := false }) ∨ p.duty = (.rest, p) ∨
      (p.frameCount ≠ 0 ∧ p.duty = (.load p.job, p)) := by
  unfold duty
  split
  · exact .inl rfl
  rename_i hgo
  split
  · exact .inr (.inl rfl)
  · have hcount : p.frameCount ≠ 0 := by
      intro hzero
      simp [hzero] at hgo
    exact .inr (.inr ⟨hcount, rfl⟩)

theorem eq_job_of_duty {job : Job} (h : p.duty.1 = .load job) :
    p.frameCount ≠ 0 ∧ job = p.job ∧ p.duty.2 = p := by
  obtain he | he | ⟨hcount, he⟩ := p.duty_cases
  · simp [he] at h
  · simp [he] at h
  · have hjob : p.job = job := by simpa [he] using h
    exact ⟨hcount, hjob.symm, by rw [he]⟩

/-! ## What holds at any time -/

/-- The slots differ, the current frame is one of the animation, a frame is ready only while an
animation plays, and one that plays is not to stop. -/
structure Wellformed (p : Playback) : Prop where
  apart : p.currentSlot ≠ p.nextSlot
  count : p.frameCount < Bytes.wordLimit
  frame : p.currentFrame < max p.frameCount 1
  playing : p.playing = true → p.stopping = false
  ready : p.ready = true → p.playing = true

namespace Wellformed

theorem initial : Playback.initial.Wellformed where
  apart := by decide
  count := by decide
  frame := by decide
  playing := nofun
  ready := nofun

theorem start (p : Playback) (frameCount : UInt32) : (p.start frameCount.toNat).Wellformed where
  apart := nofun
  count := frameCount.toNat_lt
  frame := by
    show frameCount.toNat - 1 < max frameCount.toNat 1
    omega
  playing _ := rfl
  ready := nofun

theorem duty (h : p.Wellformed) : p.duty.2.Wellformed := by
  obtain he | he | ⟨-, he⟩ := p.duty_cases
  · rw [he]
    exact ⟨h.apart, h.count, h.frame, h.playing, h.ready⟩
  · rw [he]
    exact h
  · rw [he]
    exact h

theorem deliver (h : p.Wellformed) (session : UInt32) (ok : Bool) :
    (p.deliver session ok).2.Wellformed := by
  obtain he | ⟨-, hplaying, he⟩ := p.deliver_cases session ok
  · rw [he]
    exact h
  · rw [he]
    exact ⟨h.apart, h.count, h.frame, h.playing, fun _ => hplaying⟩

theorem advance (h : p.Wellformed) : p.advance.2.Wellformed where
  apart := h.apart.symm
  count := h.count
  frame := by
    have hframe := h.frame
    show (if p.frameCount = 0 then p.currentFrame else p.nextFrame) < max p.frameCount 1
    split
    · exact hframe
    · have hnext : p.nextFrame < p.frameCount := nextFrame_lt (by omega)
      omega
  playing := h.playing
  ready := nofun

theorem halt (h : p.Wellformed) : p.halt.Wellformed where
  apart := h.apart
  count := h.count
  frame := h.frame
  playing := nofun
  ready := nofun

theorem step (h : p.Wellformed) (op : Op) : (p.step op).Wellformed := by
  cases op with
  | start frameCount => exact .start p frameCount
  | duty => exact h.duty
  | deliver session ok => exact h.deliver session ok
  | readySlot => exact h
  | advance => exact h.advance
  | halt => exact h.halt

theorem after (h : p.Wellformed) (ops : List Op) : (p.after ops).Wellformed := by
  induction ops generalizing p with
  | nil => exact h
  | cons op ops ih => exact ih (h.step op)

/-- The next frame is computed with no overflow and no remainder by zero. -/
theorem currentFrame_succ_lt (h : p.Wellformed) : p.currentFrame + 1 < Bytes.wordLimit := by
  have hcount := h.count
  have hframe := h.frame
  have hword : 1 < Bytes.wordLimit := by decide
  omega

/-- Where there are no frames there is nothing to divide by, and an advance stays where it is. -/
theorem advance_nothing (h : p.Wellformed) (hzero : p.frameCount = 0) : p.advance.1 = 0 := by
  have hframe := h.frame
  have hstay : p.advance.1 = p.currentFrame := if_pos hzero
  omega

theorem slots (h : p.Wellformed) :
    p.currentSlot = .first ∧ p.nextSlot = .second ∨
      p.currentSlot = .second ∧ p.nextSlot = .first := by
  have hapart := h.apart
  revert hapart
  cases p.currentSlot <;> cases p.nextSlot <;> simp

end Wellformed

/-! ## Frames -/

def place (p : Playback) : Nat × Nat × Slot × Slot :=
  (p.frameCount, p.currentFrame, p.currentSlot, p.nextSlot)

/-- Only a start and an advance move the animation, and no other operation is a new session. -/
theorem step_still (hs : op.starts = false) (ha : op.advances = false) :
    (p.step op).place = p.place ∧ (p.step op).session = p.session := by
  cases op with
  | start frameCount => cases hs
  | advance => cases ha
  | readySlot => exact ⟨rfl, rfl⟩
  | halt => exact ⟨rfl, rfl⟩
  | duty =>
    obtain he | he | ⟨-, he⟩ := p.duty_cases
    all_goals simp only [step, he, place, and_self]
  | deliver session ok =>
    obtain he | ⟨-, -, he⟩ := p.deliver_cases session ok
    all_goals simp only [step, he, place, and_self]

theorem place_after (hs : ∀ op ∈ ops, op.starts = false) (ha : ∀ op ∈ ops, op.advances = false) :
    (p.after ops).place = p.place := by
  induction ops generalizing p with
  | nil => rfl
  | cons op ops ih =>
    have hstep : (p.step op).place = p.place :=
      (step_still (hs op List.mem_cons_self) (ha op List.mem_cons_self)).1
    have hrest := ih (p := p.step op) (fun o ho => hs o (List.mem_cons_of_mem op ho))
      (fun o ho => ha o (List.mem_cons_of_mem op ho))
    exact hrest.trans hstep

theorem nextFrame_of_place (h : p.place = q.place) : p.nextFrame = q.nextFrame := by
  simp only [place, Prod.mk.injEq] at h
  rw [nextFrame, nextFrame, h.1, h.2.1]

theorem advance_frame (h : p.frameCount ≠ 0) : p.advance.1 = p.nextFrame :=
  if_neg h

/-- An animation of `n` frames at its `k`-th advance. -/
def Due (n k : Nat) (p : Playback) : Prop :=
  p.frameCount = n ∧ p.nextFrame = k % n

theorem due_start {n : Nat} (p : Playback) (h : n ≠ 0) : Due n 0 (p.start n) := by
  have hlast : n - 1 + 1 = n := by omega
  refine ⟨rfl, ?_⟩
  show (n - 1 + 1) % n = 0 % n
  rw [hlast, Nat.mod_self, Nat.zero_mod]

theorem Due.advance {n k : Nat} (h : Due n k p) (hn : n ≠ 0) : Due n (k + 1) p.advance.2 := by
  obtain ⟨hcount, hnext⟩ := h
  have hframe : p.advance.2.currentFrame = k % n := (advance_frame (hcount ▸ hn)).trans hnext
  refine ⟨hcount, ?_⟩
  show (p.advance.2.currentFrame + 1) % p.frameCount = (k + 1) % n
  rw [hframe, hcount, Nat.mod_add_mod]

theorem Due.congr {n k : Nat} (h : Due n k p) (he : q.place = p.place) : Due n k q :=
  ⟨(congrArg Prod.fst he).trans h.1, (nextFrame_of_place he).trans h.2⟩

/-- Every advance counts, and nothing else but a start. -/
theorem Due.after {n k : Nat} (h : Due n k p) (hn : n ≠ 0) (hs : ∀ op ∈ ops, op.starts = false) :
    Due n (k + ops.countP Op.advances) (p.after ops) := by
  induction ops generalizing p k with
  | nil => exact h
  | cons op ops ih =>
    have hrest := fun o ho => hs o (List.mem_cons_of_mem op ho)
    rw [after_cons, List.countP_cons]
    cases ha : op.advances with
    | false =>
      have hplace : (p.step op).place = p.place := (step_still (hs op List.mem_cons_self) ha).1
      have hdue := ih (h.congr hplace) hrest
      simpa using hdue
    | true =>
      have hstep : p.step op = p.advance.2 := by
        cases op with
        | advance => rfl
        | _ => cases ha
      have hcount : k + (ops.countP Op.advances + 1) = k + 1 + ops.countP Op.advances := by omega
      have hdue := ih (h.advance hn) hrest
      rw [hstep]
      simpa [hcount] using hdue

/-! ## Sessions -/

/-- Every start has a number of its own, and nothing else changes it. -/
theorem session_step (p : Playback) (op : Op) :
    (p.step op).session = p.session + UInt32.ofNat op.starts.toNat := by
  cases hs : op.starts with
  | true =>
    cases op with
    | start frameCount => rfl
    | _ => cases hs
  | false =>
    have hsame : (p.step op).session = p.session := by
      cases ha : op.advances with
      | false => exact (step_still hs ha).2
      | true =>
        cases op with
        | advance => rfl
        | _ => cases ha
    exact hsame.trans (UInt32.add_zero _).symm

private theorem session_after (p : Playback) (ops : List Op) :
    (p.after ops).session = p.session + UInt32.ofNat (ops.countP Op.starts) := by
  induction ops generalizing p with
  | nil => exact (UInt32.add_zero _).symm
  | cons op ops ih =>
    have hcount : (op :: ops).countP Op.starts = op.starts.toNat + ops.countP Op.starts := by
      rw [List.countP_cons, Nat.add_comm]
      cases op.starts <;> rfl
    rw [after_cons, ih, session_step, hcount, UInt32.ofNat_add, UInt32.add_assoc]

/-- The numbers come round again only after as many starts as there are words. -/
theorem session_ne (hpos : 0 < ops.countP Op.starts)
    (hlt : ops.countP Op.starts < Bytes.wordLimit) : (p.after ops).session ≠ p.session := by
  intro heq
  rw [session_after] at heq
  have hsum : p.session + UInt32.ofNat (ops.countP Op.starts) = p.session + 0 := by
    rw [heq, UInt32.add_zero]
  have hzero : UInt32.ofNat (ops.countP Op.starts) = 0 := (UInt32.add_right_inj _).mp hsum
  have hmod : ops.countP Op.starts % Bytes.wordLimit = 0 := congrArg UInt32.toNat hzero
  rw [Nat.mod_eq_of_lt hlt] at hmod
  omega

private theorem deliver_other {session : UInt32} (h : session ≠ p.session) (ok : Bool) :
    p.deliver session ok = (false, p) := by
  simp [deliver, h]

/-! ## Any run -/

/-- Whatever operations came: the buffers are the two there are, the current frame is one of the
animation and the next is computed within a word, an animation that plays is not to stop, and a
frame is ready only while one plays. From a start with a frame on, the advances bring the frames in
turn from the first. A load that the loader is told of is for the frame that the next advance brings
and for the buffer that it makes current. A report from before a start counts for nothing, until the
sessions have come round. -/
theorem any_order (ops : List Op) :
    let p := initial.after ops
    (p.currentSlot = .first ∧ p.nextSlot = .second ∨
      p.currentSlot = .second ∧ p.nextSlot = .first) ∧
    (p.currentFrame < max p.frameCount 1 ∧ p.currentFrame + 1 < Bytes.wordLimit ∧
      (p.frameCount = 0 → p.advance.1 = 0)) ∧
    (p.playing = true → p.stopping = false) ∧
    (p.ready = true → p.playing = true) ∧
    (∀ (n : UInt32) (more : List Op), n ≠ 0 → (∀ op ∈ more, op.starts = false) →
      ((p.start n.toNat).after more).advance.1 = more.countP Op.advances % n.toNat) ∧
    (∀ (job : Job) (more : List Op), p.duty.1 = .load job → (∀ op ∈ more, op.starts = false) →
      (∀ op ∈ more, op.advances = false) →
      p.frameCount ≠ 0 ∧ (p.duty.2.after more).advance.1 = job.frame ∧
        (p.duty.2.after more).advance.2.currentSlot = job.slot) ∧
    ∀ (more : List Op) (ok : Bool), 0 < more.countP Op.starts →
      more.countP Op.starts < Bytes.wordLimit →
      (p.after more).deliver p.session ok = (false, p.after more) := by
  intro p
  have hp : p.Wellformed := Wellformed.initial.after ops
  refine ⟨hp.slots, ⟨hp.frame, hp.currentFrame_succ_lt, hp.advance_nothing⟩, hp.playing, hp.ready,
    ?frames, ?load, ?stale⟩
  case frames =>
    intro n more hn hs
    have hcount : n.toNat ≠ 0 := fun hzero => hn (UInt32.toNat_inj.mp hzero)
    have hdue := (p.due_start hcount).after hcount hs
    rw [Nat.zero_add] at hdue
    have hne : ((p.start n.toNat).after more).frameCount ≠ 0 := hdue.1.symm ▸ hcount
    rw [advance_frame hne, hdue.2]
  case load =>
    intro job more hjob hs ha
    obtain ⟨hcount, rfl, hsame⟩ := eq_job_of_duty hjob
    have hplace : (p.after more).place = p.place := place_after hs ha
    have hne : (p.after more).frameCount ≠ 0 := fun hzero =>
      hcount ((congrArg Prod.fst hplace).symm.trans hzero)
    rw [hsame, advance_frame hne]
    exact ⟨hcount, nextFrame_of_place hplace, congrArg (·.2.2.2) hplace⟩
  case stale =>
    intro more ok hpos hlt
    exact deliver_other (session_ne hpos hlt).symm ok

/-- Three frames are shown in turn across a stop, and a load from before is not taken for one of
the animation that comes after it. -/
theorem third_frame_after_halt :
    let p := initial.after [.start 5, .advance]
    ((p.start 3).after [.advance, .halt, .advance, .duty]).advance.1 = 2 ∧
    p.duty.1 = .load ⟨1, .first, 1⟩ ∧ (p.duty.2.after [.halt, .readySlot]).advance.1 = 1 ∧
    ((p.after [.halt, .start 4]).deliver 1 true) = (false, p.after [.halt, .start 4]) := by
  intro p
  have h := any_order [.start 5, .advance]
  have hframes := h.2.2.2.2.1 3 [.advance, .halt, .advance, .duty] (by decide) (by decide)
  have hload := h.2.2.2.2.2.1 ⟨1, .first, 1⟩ [.halt, .readySlot] rfl (by decide) (by decide)
  have hstale := h.2.2.2.2.2.2 [.halt, .start 4] true (by decide) (by decide)
  exact ⟨hframes, rfl, hload.2.1, hstale⟩

end PanelLink.Playback
