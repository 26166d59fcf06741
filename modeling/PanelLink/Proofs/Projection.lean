import PanelLink.Proofs.Frames
import PanelLink.Proofs.Teardown

/-!
The projection of a whole animation. From its start to the next one, whatever happens in between,
the ticks present its frames in turn, each of them as the file was when the loader read it.
-/
namespace PanelLink

variable {size chunk : Nat} {σ φ δ ε : Type} [FileStore σ φ δ]

def Backed.contents? [Backed σ φ δ] (s : σ) (path : Bytes) : Option Bytes :=
  (Backed.volume s).contents? path

theorem Backed.contents?_eq [Backed σ φ δ] {s : σ} {path contents : Bytes} {k : Key}
    (hk : Volume.key path = .ok k) (h : Backed.node? s k = some (.file contents)) :
    Backed.contents? s path = some contents := by
  have hn : (Backed.volume s).tree.get? k = some (.file contents) := h
  simp only [Backed.contents?, Volume.contents?, hk, hn, Body.bytes_ofBytes]

namespace Scene

/-- The action begins the animation at `path`, which has `frames` frames. -/
def Launches (s : Scene size chunk σ φ ε) (a : Action σ ε) (path : Bytes) (frames : Nat) : Prop :=
  s.launched? a = some frames ∧
    ∃ r e d run, s.Advances a r e d run ∧ r.animation? e = some path

/-- The poll after `cs` reads a frame, and no tick of `ds` takes it. -/
structure Filled (s : Scene size chunk σ φ ε) (cs ds : List (Action σ ε)) : Prop where
  before : (s.after cs).device.playback.ready = false
  since : ∀ es, es <+: ds → (s.after (cs ++ .aside .poll :: es)).device.playback.ready = true

theorem Filled.snoc {s : Scene size chunk σ φ ε} {cs ds : List (Action σ ε)} (h : s.Filled cs ds)
    {b : Action σ ε}
    (hb : (s.after (cs ++ .aside .poll :: (ds ++ [b]))).device.playback.ready = true) :
    s.Filled cs (ds ++ [b]) where
  before := h.before
  since es hes := by
    obtain rfl | hes := List.prefix_concat_iff.mp hes
    · exact hb
    · exact h.since es hes

theorem after_snoc (s : Scene size chunk σ φ ε) (as : List (Action σ ε)) (a : Action σ ε) :
    s.after (as ++ [a]) = ((s.after as).act a).2 :=
  s.after_append as [a]

theorem shown_snoc (s : Scene size chunk σ φ ε) (as : List (Action σ ε)) (a : Action σ ε) :
    s.shown (as ++ [a]) = s.shown as ++
      match ((s.after as).act a).1 with
      | .ticked (.presented frame) => [frame]
      | _ => [] := by
  rw [shown_append]
  congr 1
  show List.filterMap _ [((s.after as).act a).1] = _
  cases ((s.after as).act a).1 with
  | quiet => rfl
  | answered => rfl
  | ticked t => cases t <;> rfl

/-- What can be seen of an action that is no aside is no tick. -/
theorem Advances.not_ticked {s : Scene size chunk σ φ ε} {a r e d run}
    (h : s.Advances a r e d run) (t : Tick) : (s.act a).1 ≠ .ticked t := by
  rw [h.act_eq]
  cases run <;> simp [settle]

/-- An action that presents a frame is a tick of the timer on a frame that is ready. -/
theorem act_presented {s : Scene size chunk σ φ ε} {a : Action σ ε} {frame : Nat}
    (h : (s.act a).1 = .ticked (.presented frame)) :
    s.device.playback.playing = true ∧ s.device.playback.ready = true ∧
      frame = s.device.playback.advance.1 ∧
      (s.act a).2.device.playback = s.device.playback.advance.2 ∧
      (s.act a).2.device.file = s.device.file ∧
      (s.act a).2.device.display.frames =
        s.device.display.frames ++ [s.device.buffers.get s.device.playback.nextSlot] := by
  have htick {d : Device size σ φ} (ht : d.tick.1 = .presented frame) :
      d.playback.playing = true ∧ d.playback.ready = true ∧ frame = d.playback.advance.1 ∧
        d.tick.2.playback = d.playback.advance.2 ∧ d.tick.2.file = d.file ∧
        d.tick.2.display.frames = d.display.frames ++ [d.buffers.get d.playback.nextSlot] := by
    obtain ⟨hi, -⟩ | ⟨hi, -⟩ | ⟨hi, hp, hr, hw⟩ := d.tick_cases
    · simp [hi] at ht
    · simp [hi] at ht
    · rw [hi] at ht
      rw [hw]
      exact ⟨hp, hr, (Tick.presented.inj ht).symm, rfl, rfl, rfl⟩
  obtain ⟨x, rfl⟩ | ⟨r, e, d, run, ha⟩ | ⟨hq, -⟩ := s.act_cases a
  · have hx : ((x.apply s.device).1.elim .quiet .ticked : Event ε) = .ticked (.presented frame) := h
    cases x with
    | tick => exact htick (Event.ticked.inj hx)
    | timer =>
      by_cases hrun : s.device.timerRunning = true
      · simp only [Aside.apply, hrun, if_true, Option.elim] at hx
        have hw := htick (Event.ticked.inj hx)
        show _ ∧ _ ∧ _ ∧ s.device.pollTimer.playback = _ ∧ s.device.pollTimer.file = _ ∧
          s.device.pollTimer.display.frames = _
        unfold Device.pollTimer
        rw [hrun]
        exact hw
      · simp [Aside.apply, hrun] at hx
    | poll => simp [Aside.apply] at hx
    | alter => simp [Aside.apply] at hx
    | setFault => simp [Aside.apply] at hx
  · exact absurd h (ha.not_ticked _)
  · simp [hq] at h

/-- Beside the commands only a poll, or a tick that presents a frame, changes an animation. -/
theorem aside_silent {d : Device size σ φ} {x : Aside σ} (hx : x ≠ .poll)
    (hq : ∀ frame, (x.apply d).1 ≠ some (.presented frame)) :
    (x.apply d).2.playback = d.playback ∧ (x.apply d).2.buffers = d.buffers ∧
      (x.apply d).2.file = d.file := by
  cases x with
  | poll => exact absurd rfl hx
  | tick =>
    show d.tick.2.playback = _ ∧ d.tick.2.buffers = _ ∧ d.tick.2.file = _
    obtain ⟨-, hw, -⟩ | ⟨-, hw, -⟩ | ⟨hi, -⟩ := d.tick_cases
    · rw [hw]
      exact ⟨rfl, rfl, rfl⟩
    · rw [hw]
      exact ⟨rfl, rfl, rfl⟩
    · exact absurd (congrArg some hi) (hq _)
  | timer =>
    show d.pollTimer.playback = _ ∧ d.pollTimer.buffers = _ ∧ d.pollTimer.file = _
    unfold Device.pollTimer
    by_cases hrun : d.timerRunning = true
    · rw [if_pos hrun]
      obtain ⟨-, hw, -⟩ | ⟨-, hw, -⟩ | ⟨hi, -⟩ := d.tick_cases
      · rw [hw]
        exact ⟨rfl, rfl, rfl⟩
      · rw [hw]
        exact ⟨rfl, rfl, rfl⟩
      · refine absurd ?_ (hq d.playback.advance.1)
        show (if d.timerRunning then some d.tick.1 else none) = _
        rw [if_pos hrun, hi]
    · rw [if_neg hrun]
      exact ⟨rfl, rfl, rfl⟩
  | alter change => exact ⟨rfl, rfl, rfl⟩
  | setFault fault => exact ⟨rfl, rfl, rfl⟩

theorem unpresented {s : Scene size chunk σ φ ε} {x : Aside σ}
    (hq : ∀ frame, (s.act (.aside x)).1 ≠ .ticked (.presented frame)) (frame : Nat) :
    (x.apply s.device).1 ≠ some (.presented frame) := by
  intro h
  refine hq frame ?_
  show ((x.apply s.device).1.elim .quiet .ticked : Event ε) = .ticked (.presented frame)
  rw [h]
  rfl

/-- Of the other actions that begin no animation, only a poll changes one that plays. -/
theorem Orderly.act_silent {s : Scene size chunk σ φ ε} (hs : s.Orderly) {a : Action σ ε}
    (hn : s.launched? a = none) (hq : ∀ frame, (s.act a).1 ≠ .ticked (.presented frame)) :
    (s.act a).2.device.playback.playing = false ∨ a = .aside .poll ∨
    ((s.act a).2.device.playback = s.device.playback ∧
      (s.act a).2.device.buffers = s.device.buffers ∧ (s.act a).2.device.file = s.device.file) := by
  obtain ⟨x, rfl⟩ | ⟨r, e, d, run, ha⟩ | ⟨-, ha | ⟨r, e, p, k, -, -, ha⟩⟩ := s.act_cases a
  · by_cases hx : x = .poll
    · exact .inr (.inl (congrArg _ hx))
    · exact .inr (.inr (aside_silent hx fun frame => unpresented hq frame))
  · cases hs.shift ha with
    | quiet h₁ h₂ h₃ _ => exact .inr (.inr ⟨h₁, h₂, h₃⟩)
    | idle h₁ _ _ => exact .inl h₁
    | launch _ h₂ _ _ _ => simp [launched?_eq_some h₂] at hn
  · rw [ha]
    exact .inr (.inr ⟨rfl, rfl, rfl⟩)
  · rw [ha]
    obtain hd | ⟨-, hd⟩ := s.device.arrived_eq p
    · rw [hd]
      exact .inr (.inr ⟨rfl, rfl, rfl⟩)
    · rw [hd]
      exact .inr (.inr ⟨rfl, rfl, rfl⟩)

/-- Without an animation only a start brings one. -/
theorem Orderly.still_act {s : Scene size chunk σ φ ε} (hs : s.Orderly) {a : Action σ ε}
    (hstill : s.device.playback.playing = false) (hn : s.launched? a = none) :
    (s.act a).2.device.playback.playing = false := by
  have hhalt : Device.Halted s.device s.device := ⟨hs.coherent, hstill, rfl, rfl, rfl⟩
  obtain ⟨x, rfl⟩ | ⟨r, e, d, run, ha⟩ | ⟨-, ha | ⟨r, e, p, k, -, -, ha⟩⟩ := s.act_cases a
  · exact (hhalt.aside x).still
  · cases hs.shift ha with
    | quiet h₁ _ _ _ => rw [h₁, hstill]
    | idle h₁ _ _ => exact h₁
    | launch _ h₂ _ _ _ => simp [launched?_eq_some h₂] at hn
  · rw [ha, hstill]
  · rw [ha]
    exact (hhalt.arrived p).still

/-! ## The run of an animation -/

variable [Backed σ φ δ]

omit [FileStore σ φ δ] [Backed σ φ δ] in
/-- Every frame of an animation begins and ends within reach of a position. -/
theorem frameOffset_eq (frame : Nat) {n : Nat} (hn : n ≠ 0) (h : n * size < Bytes.wordLimit) :
    Device.frameOffset size (frame % n) = frame % n * size ∧
      frame % n * size + size ≤ Bytes.wordLimit := by
  have hlt : frame % n < n := Nat.mod_lt _ (Nat.pos_of_ne_zero hn)
  have hle : (frame % n + 1) * size ≤ n * size := Nat.mul_le_mul_right size hlt
  rw [Nat.succ_mul] at hle
  unfold Device.frameOffset
  omega

/-- After `bs` the animation at `path`, of `n` frames, has shown its frames in turn, and a frame
that is ready was in the file at a poll of `bs`. -/
structure Showing (s : Scene size chunk σ φ ε) (path : Bytes) (n : Nat)
    (bs : List (Action σ ε)) : Prop where
  projects : (s.after bs).device.Projects path n (s.shown bs).length
  loaded : (s.after bs).device.playback.ready = true → ∃ cs ds contents,
    bs = cs ++ .aside .poll :: ds ∧ s.Filled cs ds ∧
    Backed.contents? (s.after cs).device.store path = some contents ∧
    (s.after bs).device.Holds contents ((s.shown bs).length % n)

theorem Showing.keep {s : Scene size chunk σ φ ε} {path : Bytes} {n : Nat}
    {bs : List (Action σ ε)} (h : s.Showing path n bs) {b : Action σ ε}
    (hq : ∀ frame, ((s.after bs).act b).1 ≠ .ticked (.presented frame))
    (hp : ((s.after bs).act b).2.device.playback = (s.after bs).device.playback)
    (hb : (s.after bs).device.playback.ready = true →
      ((s.after bs).act b).2.device.buffers = (s.after bs).device.buffers)
    (hprojects : ((s.after bs).act b).2.device.Projects path n (s.shown bs).length) :
    s.Showing path n (bs ++ [b]) := by
  have hshown : s.shown (bs ++ [b]) = s.shown bs := by
    rw [shown_snoc]
    split
    · rename_i frame he
      exact absurd he (hq frame)
    · exact List.append_nil _
  refine ⟨by rw [after_snoc, hshown]; exact hprojects, fun hr => ?_⟩
  have hready : (s.after bs).device.playback.ready = true := by
    rwa [after_snoc, hp] at hr
  obtain ⟨cs, ds, contents, rfl, hfilled, hc, hh⟩ := h.loaded hready
  refine ⟨cs, ds ++ [b], contents, by simp, hfilled.snoc (by simpa using hr), hc, ?_⟩
  rw [after_snoc, hshown]
  unfold Device.Holds
  rw [hp, hb hready]
  exact hh

theorem Showing.poll {s : Scene size chunk σ φ ε} {path : Bytes} {n : Nat} {bs : List (Action σ ε)}
    (h : s.Showing path n bs) (hc : (s.after bs).device.Coherent) (hd : (s.after bs).device.Sized)
    (hsize : 0 < size) (hn : n ≠ 0) (hlimit : n * size < Bytes.wordLimit)
    (hplay : (s.after bs).device.playback.playing = true) :
    s.Showing path n (bs ++ [.aside .poll]) := by
  have hprojects := h.projects.poll hc
  have hroom : Device.frameOffset size (s.after bs).device.playback.nextFrame + size ≤
      Bytes.wordLimit := by
    obtain ⟨hoffset, hend⟩ := frameOffset_eq (s.shown bs).length hn hlimit
    rwa [h.projects.next, hoffset]
  obtain ⟨hp, hb⟩ | ⟨hr, hp, f, contents, hf, hnode, hbuf, hlen⟩ :=
    Device.poll_ready hc hd hsize hroom hplay
  · exact h.keep (fun _ he => nomatch he) hp hb hprojects
  have hshown : s.shown (bs ++ [.aside .poll]) = s.shown bs := by
    rw [shown_snoc]
    exact List.append_nil _
  have hdevice : (s.after (bs ++ [.aside .poll])).device = (s.after bs).device.pollLoader := by
    rw [after_snoc]
    rfl
  refine ⟨by rw [hdevice, hshown]; exact hprojects, fun hready => ?_⟩
  obtain ⟨g, hg, hkey⟩ := h.projects.file
  obtain rfl := Option.some.inj (hg.symm.trans hf)
  refine ⟨bs, [], contents, rfl, ⟨hr, fun es hes => ?_⟩, Backed.contents?_eq hkey hnode, ?_⟩
  · rw [List.prefix_nil.mp hes]
    exact hready
  · rw [hdevice, hshown, ← h.projects.next]
    unfold Device.Holds
    rw [hp]
    exact ⟨hbuf, hlen⟩

/-- The tick that presents the next frame makes room for the one after it. -/
theorem Showing.present {s : Scene size chunk σ φ ε} {path : Bytes} {n : Nat}
    {bs : List (Action σ ε)} (h : s.Showing path n bs) (hn : n ≠ 0) {b : Action σ ε} {frame : Nat}
    (hb : ((s.after bs).act b).1 = .ticked (.presented frame)) :
    s.Showing path n (bs ++ [b]) := by
  obtain ⟨-, -, -, hp, hf, -⟩ := act_presented hb
  obtain ⟨-, hnext, hcount⟩ := h.projects.advance hn
  have hshown : s.shown (bs ++ [b]) = s.shown bs ++ [frame] := by
    rw [shown_snoc, hb]
  rw [← after_snoc] at hp hf
  refine ⟨⟨by rw [hp, hcount], ?_, by rw [hf]; exact h.projects.file⟩, fun hr => ?_⟩
  · rw [hp, hnext, hshown, List.length_append]
    rfl
  · rw [hp] at hr
    simp [Playback.advance] at hr

/-- One action of an animation that plays. -/
theorem Showing.step {s : Scene size chunk σ φ ε} {path : Bytes} {n : Nat} {bs : List (Action σ ε)}
    (h : s.Showing path n bs) (hs : (s.after bs).Orderly) (hd : (s.after bs).device.Sized)
    (hsize : 0 < size) (hn : n ≠ 0) (hlimit : n * size < Bytes.wordLimit)
    (hplay : (s.after bs).device.playback.playing = true) {b : Action σ ε}
    (hb : (s.after bs).launched? b = none) :
    (s.after (bs ++ [b])).device.playback.playing = false ∨ s.Showing path n (bs ++ [b]) := by
  by_cases hq : ∃ frame, ((s.after bs).act b).1 = .ticked (.presented frame)
  · obtain ⟨frame, hq⟩ := hq
    exact .inr (h.present hn hq)
  have hq' : ∀ frame, ((s.after bs).act b).1 ≠ .ticked (.presented frame) :=
    fun frame he => hq ⟨frame, he⟩
  obtain hstill | rfl | ⟨hp, hbuf, hf⟩ := hs.act_silent hb hq'
  · exact .inl (by rwa [after_snoc])
  · exact .inr (h.poll hs.coherent hd hsize hn hlimit hplay)
  · exact .inr (h.keep hq' hp (fun _ => hbuf) (h.projects.congr hp hf))

/-- As long as no other animation begins, one that plays shows its frames. -/
theorem Showing.run {s : Scene size chunk σ φ ε} {path : Bytes} {n : Nat}
    (hs : ∀ bs, (s.after bs).Orderly) (hd : ∀ bs, (s.after bs).device.Sized) (hsize : 0 < size)
    (hn : n ≠ 0) (hlimit : n * size < Bytes.wordLimit) (rest : List (Action σ ε))
    {bs : List (Action σ ε)}
    (h : (s.after bs).device.playback.playing = false ∨ s.Showing path n bs)
    (hl : (s.after bs).launches rest = 0) :
    (s.after (bs ++ rest)).device.playback.playing = false ∨ s.Showing path n (bs ++ rest) := by
  -- On what is still to come: what was shown so far stays in view as `bs`.
  induction rest generalizing bs with
  | nil => rwa [List.append_nil]
  | cons b rest ih =>
    have hsum : ((s.after bs).launched? b).isSome.toNat +
        ((s.after bs).act b).2.launches rest = 0 := hl
    obtain ⟨hb, hrest⟩ := Nat.add_eq_zero_iff.mp hsum
    have hnone : (s.after bs).launched? b = none := by
      cases hl : (s.after bs).launched? b with
      | none => rfl
      | some n => simp [hl] at hb
    rw [List.append_cons bs b rest]
    refine ih ?_ (by rwa [after_snoc])
    by_cases hplay : (s.after bs).device.playback.playing = true
    · obtain hstill | h := h
      · simp [hstill] at hplay
      · exact h.step (hs bs) (hd bs) hsize hn hlimit hplay hnone
    · refine .inl ?_
      rw [after_snoc]
      exact (hs bs).still_act (Bool.eq_false_iff.mpr hplay) hnone

omit [Backed σ φ δ] in
/-- Whatever begins an animation was asked to. -/
theorem Orderly.launches {s : Scene size chunk σ φ ε} (hs : s.Orderly) {a : Action σ ε} {n : Nat}
    (h : s.launched? a = some n) : ∃ path, s.Launches a path n := by
  have hsession : (s.act a).2.device.playback.session ≠ s.device.playback.session :=
    fun he => by simp [launched?_eq_none he] at h
  obtain ⟨x, rfl⟩ | ⟨r, e, d, run, ha⟩ | ⟨-, ha | ⟨r, e, p, k, -, -, ha⟩⟩ := s.act_cases a
  · exact absurd (aside_session hs.coherent x).1 hsession
  · cases hs.shift ha with
    | quiet h₁ _ _ _ => exact absurd (congrArg Playback.session h₁) hsession
    | idle _ h₂ _ => exact absurd h₂ hsession
    | launch h₁ _ _ _ _ => exact ⟨_, h, r, e, d, run, ha, h₁⟩
  · rw [ha] at hsession
    exact absurd rfl hsession
  · rw [ha] at hsession
    obtain hd | ⟨-, hd⟩ := s.device.arrived_eq p
    · rw [hd] at hsession
      exact absurd rfl hsession
    · rw [hd] at hsession
      exact absurd rfl hsession

end Scene

end PanelLink
