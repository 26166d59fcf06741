import PanelLink.Proofs.Twins

/-!
Two devices that go on in lockstep: a poll of the loader does the same on both, and so does a tick.
What they have left over from before never shows: the numbers of their sessions, bytes in a buffer
that waits for its frame, a signal that nobody waits for.
-/
namespace PanelLink

variable {size : Nat} {σ φ δ : Type}

def Aside.OfPlayer : Aside σ → Prop
  | poll | tick => True
  | timer | alter _ | setFault _ => False

theorem Aside.OfPlayer.ofTasks {a : Aside σ} (h : a.OfPlayer) : a.OfTasks := by
  cases a with
  | poll => trivial
  | tick => trivial
  | timer => trivial
  | alter change => exact h
  | setFault fault => exact h

/-! ## Animations that are equally far -/

structure Job.Like (j j' : Job) : Prop where
  frame : j.frame = j'.frame
  slot : j.slot = j'.slot

inductive Loader.Like : Loader → Loader → Prop
  | asleep : Like .asleep .asleep
  | resting : Like .resting .resting
  | queued {j j' : Job} : j.Like j' → Like (.queued j) (.queued j')

theorem Loader.Like.cases {l l' : Loader} (h : l.Like l') :
    (l = .asleep ∧ l' = .asleep) ∨ (l = .resting ∧ l' = .resting) ∨
    ∃ j j', l = .queued j ∧ l' = .queued j' ∧ j.Like j' := by
  cases h with
  | asleep => exact .inl ⟨rfl, rfl⟩
  | resting => exact .inr (.inl ⟨rfl, rfl⟩)
  | queued hj => exact .inr (.inr ⟨_, _, rfl, rfl, hj⟩)

namespace Playback

/-- The playbacks play the same but for the number of the session, or neither plays. -/
inductive Like (p : Playback) : Playback → Prop
  | even (session : UInt32) : Like p { p with session := session }
  | ended {p' : Playback} : p.playing = false → p.loaderActive = false → p'.playing = false →
      p'.loaderActive = false → Like p p'

namespace Like

variable {p p' : Playback}

theorem playing (h : p.Like p') : p.playing = p'.playing := by
  cases h with
  | even session => rfl
  | ended hp _ hp' _ => rw [hp, hp']

theorem active (h : p.Like p') : p.loaderActive = p'.loaderActive := by
  cases h with
  | even session => rfl
  | ended _ ha _ ha' => rw [ha, ha']

theorem even_of_playing (h : p.Like p') (hp : p.playing = true) :
    ∃ session, p' = { p with session := session } := by
  cases h with
  | even session => exact ⟨session, rfl⟩
  | ended hn _ _ _ =>
    rw [hn] at hp
    cases hp

theorem ready (h : p.Like p') (hp : p.playing = true) : p.ready = p'.ready := by
  obtain ⟨session, rfl⟩ := h.even_of_playing hp
  rfl

theorem job (h : p.Like p') (hp : p.playing = true) : p.job.Like p'.job := by
  obtain ⟨session, rfl⟩ := h.even_of_playing hp
  exact ⟨rfl, rfl⟩

theorem halt (h : p.Like p') : p.halt.Like p'.halt := by
  cases h with
  | even session => exact .even session
  | ended _ ha _ ha' => exact .ended rfl ha rfl ha'

theorem leave (h : p.Like p') (hp : p.playing = false) :
    Like { p with loaderActive := false } { p' with loaderActive := false } :=
  .ended hp rfl (h.playing.symm.trans hp) rfl

end Like

/-- A load for the session of the animation makes its frame ready, if there still is one. -/
theorem deliver_own {p : Playback} {session : UInt32}
    (h : p.playing = true → p.stopping = false ∧ session = p.session) (ok : Bool) :
    (p.deliver session ok).2 = if ok && p.playing then { p with ready := true } else p := by
  unfold deliver
  cases hp : p.playing with
  | false => simp
  | true =>
    obtain ⟨hs, hsession⟩ := h hp
    cases ok with
    | false => simp
    | true => simp [hs, hsession]

theorem Like.deliver {p p' : Playback} (h : p.Like p') {session session' : UInt32}
    (hown : p.playing = true → p.stopping = false ∧ session = p.session)
    (hown' : p'.playing = true → p'.stopping = false ∧ session' = p'.session) (ok : Bool) :
    (p.deliver session ok).2.Like (p'.deliver session' ok).2 := by
  rw [deliver_own hown, deliver_own hown']
  cases h with
  | even session =>
    split
    · exact .even session
    · exact .even session
  | ended hp ha hp' ha' =>
    rw [hp, hp', Bool.and_false]
    exact .ended hp ha hp' ha'

end Playback

namespace Device

variable {n : Nat} {q : Pause} {d d' v v' w w' : Device size σ φ} {a : Aside σ} {j j' : Job}

/-! ## What shows -/

/-- Since `v` and `v'` both devices have shown the same frames and released as many images. -/
def SameScreen (v v' w w' : Device size σ φ) : Prop :=
  SamePaint v v' w w' ∧ ∃ n, w.display.releases = v.display.releases + n ∧
    w'.display.releases = v'.display.releases + n

namespace SameScreen

theorem refl (v v' : Device size σ φ) : SameScreen v v' v v' :=
  ⟨.refl v v', 0, rfl, rfl⟩

theorem of_eq (h : w.display = v.display) (h' : w'.display = v'.display) :
    SameScreen v v' w w' :=
  ⟨.of_eq (by rw [h]) (by rw [h']), 0, by rw [h, Nat.add_zero], by rw [h', Nat.add_zero]⟩

theorem trans {u u' : Device size σ φ} (h : SameScreen v v' w w') (h' : SameScreen w w' u u') :
    SameScreen v v' u u' := by
  obtain ⟨hpaint, m, hw, hw'⟩ := h
  obtain ⟨hpaint', n, hu, hu'⟩ := h'
  refine ⟨hpaint.trans hpaint', m + n, ?_, ?_⟩
  · rw [hu, hw, Nat.add_assoc]
  · rw [hu', hw', Nat.add_assoc]

end SameScreen

/-! ## A single device -/

/-- A coherent device whose panel takes every frame. -/
structure CanPresent (d : Device size σ φ) : Prop where
  coherent : d.Coherent
  sized : d.Sized
  faultless : d.display.fault = none

theorem Poised.canPresent (h : d.Poised n) : d.CanPresent :=
  ⟨h.coherent, h.sized, h.faultless⟩

theorem CanPresent.aside [FileStore σ φ δ] [Backed σ φ δ] (h : d.CanPresent) (ha : a.OfTasks) :
    (a.apply d).2.CanPresent where
  coherent := h.coherent.aside a
  sized := h.sized.aside a
  faultless := (d.aside_panel ha).1.trans h.faultless

theorem CanPresent.look (h : d.CanPresent) (q : Pause) : (d.arrived q).2.CanPresent := by
  refine ⟨h.coherent.arrived q, h.sized.look q, ?_⟩
  obtain ⟨b, hd⟩ := d.arrived_rest q
  rw [hd]
  exact h.faultless

/-- What a tick does while the panel takes every frame. -/
theorem CanPresent.tick_eq (h : d.CanPresent) :
    d.tick =
      if d.playback.playing then
        if d.playback.ready then
          (.presented d.playback.advance.1, { d with
            playback := d.playback.advance.2
            display := { d.display with
              frames := d.display.frames ++ [d.buffers.get d.playback.nextSlot] } })
        else (.skipped, d)
      else (.idle, d) := by
  unfold tick Playback.readySlot?
  by_cases hp : d.playback.playing = true
  · have hs : d.playback.stopping = false := (h.coherent.playing hp).2
    simp only [hp, hs, Bool.not_true, Bool.not_false, Bool.true_and, Bool.false_eq_true, if_false,
      if_true]
    by_cases hr : d.playback.ready = true
    · simp only [hr, if_true, present_faultless h.faultless]
    · simp only [hr, Bool.false_eq_true, if_false]
  · simp [hp]

section

variable [FileStore σ φ δ]

theorem pollLoader_asleep (h : d.loader = .asleep) :
    d.pollLoader = if d.startSignal then d.awake.serve else d := by
  cases d
  cases h
  rfl

theorem pollLoader_resting (h : d.loader = .resting) : d.pollLoader = d.serve := by
  cases d
  cases h
  rfl

theorem pollLoader_queued (h : d.loader = .queued j) :
    d.pollLoader =
      if d.held then d
      else if (d.perform j).1 then (d.perform j).2.serve else (d.perform j).2.restLoader := by
  cases d
  cases h
  unfold pollLoader
  dsimp only
  split
  · rfl
  · rcases perform _ j with ⟨_ | _, w⟩
    · rfl
    · rfl

end

/-! ## Two devices -/

/-- The tasks of both devices have the same to do. The signal of the loader counts only while a
command waits for it, and a buffer only while it holds the next frame. -/
structure Parallel (L : Likeness σ φ δ) (q : Pause) (d d' : Device size σ φ) : Prop where
  held : d.held = d'.held
  playback : d.playback.Like d'.playback
  told : d.startSignal = d'.startSignal
  left : q = .acknowledgement → d.leftSignal = d'.leftSignal
  loader : d.loader.Like d'.loader
  file : Option.Rel L.file d.file d'.file
  next : d.playback.playing = true → d.playback.ready = true →
    d.buffers.get d.playback.nextSlot = d'.buffers.get d.playback.nextSlot

namespace Parallel

variable {L : Likeness σ φ δ}

theorem of_tornDown (h : d.TornDown) (h' : d'.TornDown) (hheld : d.held = d'.held) :
    Parallel L .delivery d d' where
  held := hheld
  playback := .ended h.still h.gone h'.still h'.gone
  told := h.untold.trans h'.untold.symm
  left hq := by cases hq
  loader := by
    rw [h.asleep, h'.asleep]
    exact .asleep
  file := by
    rw [h.closed, h'.closed]
    exact .none
  next hp := by
    rw [h.still] at hp
    cases hp

theorem beside (h : Parallel L q d d') (s t : σ) {b b' : Bool} (hb : b = b') :
    Parallel L q ({ d with store := s, held := b } : Device size σ φ)
      ({ d' with store := t, held := b' } : Device size σ φ) where
  held := hb
  playback := h.playback
  told := h.told
  left := h.left
  loader := h.loader
  file := h.file
  next := h.next

theorem requestStop (h : Parallel L q d d') {q' : Pause}
    (hleft : q' = .acknowledgement → d.leftSignal = d'.leftSignal) :
    Parallel L q' d.requestStop.2 d'.requestStop.2 where
  held := h.held
  playback := h.playback.halt
  told := h.told
  left := hleft
  loader := h.loader
  file := h.file
  next hp := by cases hp

theorem look (h : Parallel L q d d') :
    (d.arrived q).1 = (d'.arrived q).1 ∧ Parallel L q (d.arrived q).2 (d'.arrived q).2 := by
  cases q with
  | delivery => exact ⟨rfl, h⟩
  | acknowledgement =>
    show d.takeLeft.1 = d'.takeLeft.1 ∧ Parallel L _ d.takeLeft.2 d'.takeLeft.2
    unfold takeLeft
    rw [← h.left rfl, ← h.playback.active]
    split
    · exact ⟨rfl, h.held, h.playback, h.told, fun _ => rfl, h.loader, h.file, h.next⟩
    · exact ⟨rfl, h⟩

/-! ## Ticks -/

theorem tick (h : Parallel L q d d') (hd : d.CanPresent) (hd' : d'.CanPresent) :
    d.tick.1 = d'.tick.1 ∧ Parallel L q d.tick.2 d'.tick.2 ∧
      SameScreen d d' d.tick.2 d'.tick.2 := by
  rw [hd.tick_eq, hd'.tick_eq, ← h.playback.playing]
  by_cases hp : d.playback.playing = true
  · rw [if_pos hp, if_pos hp, ← h.playback.ready hp]
    by_cases hr : d.playback.ready = true
    · obtain ⟨session, hsession⟩ := h.playback.even_of_playing hp
      have hframe : d.playback.advance.1 = d'.playback.advance.1 := by
        rw [hsession]
        rfl
      have hnext : d.playback.advance.2.Like d'.playback.advance.2 := by
        rw [hsession]
        exact .even session
      have hshown : d.buffers.get d.playback.nextSlot = d'.buffers.get d'.playback.nextSlot := by
        rw [hsession, h.next hp hr]
      rw [if_pos hr, if_pos hr, hframe, hshown]
      refine ⟨rfl, ?_, ⟨⟨_, rfl, rfl⟩, 0, rfl, rfl⟩⟩
      exact ⟨h.held, hnext, h.told, h.left, h.loader, h.file, fun _ hr => by cases hr⟩
    · rw [if_neg hr, if_neg hr]
      exact ⟨rfl, h, .refl d d'⟩
  · rw [if_neg hp, if_neg hp]
    exact ⟨rfl, h, .refl d d'⟩

variable [FileStore σ φ δ]

/-! ## Loading a frame -/

/-- The same frame is read on both, all of it or not. -/
theorem loadFrame_alike [Backed σ φ δ] (hL : L.Lawful) (hs : L.store d.store d'.store)
    (hfile : Option.Rel L.file d.file d'.file) (hj : j.Like j') (hd : d.Sized) (hd' : d'.Sized) :
    (d.loadFrame j).1 = (d'.loadFrame j').1 ∧
      Option.Rel L.file (d.loadFrame j).2.file (d'.loadFrame j').2.file ∧
      L.store (d.loadFrame j).2.store (d'.loadFrame j').2.store ∧
      ((d.loadFrame j).1 = true →
        (d.loadFrame j).2.buffers.get j.slot = (d'.loadFrame j').2.buffers.get j.slot) := by
  have hopen := hfile
  unfold Device.loadFrame
  generalize d.file = o at hopen ⊢
  generalize d'.file = o' at hopen ⊢
  cases hopen with
  | none => exact ⟨rfl, hfile, hs, fun hok => by cases hok⟩
  | @some f g hf =>
    -- A seek and a read on either side; the first to fail ends the load on both.
    have hseek := hL.seek (.start (frameOffset size j.frame)) hs hf
    rw [← hj.frame, ← hj.slot]
    dsimp only
    rcases hx : FileStore.seek d.store f (.start (frameOffset size j.frame)) with ⟨r, f', s⟩
    rcases hy : FileStore.seek d'.store g (.start (frameOffset size j.frame)) with ⟨r', g', t⟩
    rw [hx, hy] at hseek
    obtain ⟨hr, hf', hst⟩ := hseek
    obtain rfl : r = r' := hr
    cases r with
    | error e => exact ⟨rfl, .some hf', hst, fun hok => by cases hok⟩
    | ok place =>
      have hread : L.Replies L.file (FileStore.readFull s f' size) (FileStore.readFull t g' size) :=
        hL.gather size size hst hf'
      dsimp only
      rcases hx : FileStore.readFull s f' size with ⟨got, f'', s'⟩
      rcases hy : FileStore.readFull t g' size with ⟨got', g'', t'⟩
      rw [hx, hy] at hread
      obtain ⟨hgot, hf'', hst'⟩ := hread
      obtain rfl : got = got' := hgot
      refine ⟨rfl, .some hf'', hst', fun hok => ?_⟩
      have hlen : got.bytes.length = size := by
        simp only [Bool.and_eq_true, beq_iff_eq] at hok
        exact hok.2
      have hread {d : Device size σ φ} (h : d.Sized) (f : φ) (s : σ) :
          (({ d with file := some f, store := s } : Device size σ φ).fill j.slot
            got.bytes).buffers.get j.slot = got.bytes := by
        have hsized : ({ d with file := some f, store := s } : Device size σ φ).Sized := h
        exact hsized.get_fill hlen j.slot
      rw [hread hd, hread hd']

def Asked (d : Device size σ φ) (j : Job) : Prop :=
  d.playback.playing = true →
    d.playback.stopping = false ∧ d.playback.ready = false ∧ j = d.playback.job

omit [FileStore σ φ δ] in
theorem Asked.own (h : Asked d j) :
    d.playback.playing = true → d.playback.stopping = false ∧ j.session = d.playback.session := by
  intro hp
  obtain ⟨hs, -, rfl⟩ := h hp
  exact ⟨hs, rfl⟩

theorem perform [Backed σ φ δ] (hL : L.Lawful) (h : Parallel L q d d')
    (hs : L.store d.store d'.store) (hj : j.Like j') (hd : d.Sized) (hd' : d'.Sized)
    (hasked : Asked d j) (hasked' : Asked d' j') :
    (d.perform j).1 = (d'.perform j').1 ∧ Parallel L q (d.perform j).2 (d'.perform j').2 ∧
      L.store (d.perform j).2.store (d'.perform j').2.store := by
  obtain ⟨hok, hfile, hstore, hbytes⟩ := loadFrame_alike hL hs h.file hj hd hd'
  have hperform (d : Device size σ φ) (j : Job) :
      (d.perform j).2.held = d.held ∧ (d.perform j).2.startSignal = d.startSignal ∧
        (d.perform j).2.leftSignal = d.leftSignal ∧ (d.perform j).2.loader = d.loader := by
    obtain ⟨t, f, b, hw, -⟩ := d.perform_eq j
    rw [hw]
    exact ⟨rfl, rfl, rfl, rfl⟩
  obtain ⟨hheld, htold, hleft, hloader⟩ := hperform d j
  obtain ⟨hheld', htold', hleft', hloader'⟩ := hperform d' j'
  refine ⟨hok, ⟨?_, ?_, ?_, ?_, ?_, hfile, ?_⟩, hstore⟩
  · rw [hheld, hheld', h.held]
  · rw [d.perform_deliver, d'.perform_deliver, ← hok]
    exact h.playback.deliver hasked.own hasked'.own _
  · rw [htold, htold', h.told]
  · intro hq
    rw [hleft, hleft', h.left hq]
  · rw [hloader, hloader']
    exact h.loader
  · rw [d.perform_deliver, Playback.deliver_own hasked.own]
    intro hp hr
    -- Only a load that brought a whole frame makes it ready, whatever the buffers held before.
    by_cases hok : (d.loadFrame j).1 = true
    · have hplaying : d.playback.playing = true := by
        cases hplaying : d.playback.playing with
        | true => rfl
        | false => rwa [hplaying, Bool.and_false, if_neg Bool.false_ne_true, hplaying] at hp
      obtain ⟨-, -, rfl⟩ := hasked hplaying
      rw [hok, hplaying, Bool.and_true, if_pos rfl]
      exact hbytes hok
    · rw [Bool.eq_false_iff.mpr hok, Bool.false_and, if_neg Bool.false_ne_true] at hp hr
      rw [(hasked hp).2.1] at hr
      cases hr

/-! ## Polls -/

omit [FileStore σ φ δ] in
theorem restLoader (h : Parallel L q d d') : Parallel L q d.restLoader d'.restLoader where
  held := h.held
  playback := h.playback
  told := h.told
  left := h.left
  loader := .resting
  file := h.file
  next := h.next

omit [FileStore σ φ δ] in
theorem leave (h : Parallel L q d d') (hp : d.playback.playing = false) :
    Parallel L q d.leave d'.leave where
  held := h.held
  playback := h.playback.leave hp
  told := rfl
  left _ := rfl
  loader := .asleep
  file := h.file
  next hn := by
    have hn : d.playback.playing = true := hn
    rw [hp] at hn
    cases hn

def UnderWay (d : Device size σ φ) : Prop :=
  d.playback.playing = true → d.playback.stopping = false ∧ d.playback.frameCount ≠ 0

theorem serve [Backed σ φ δ] (hL : L.Lawful) (h : Parallel L q d d')
    (hs : L.store d.store d'.store) (hd : d.Sized) (hd' : d'.Sized) (hu : UnderWay d)
    (hu' : UnderWay d') :
    Parallel L q d.serve d'.serve ∧ L.store d.serve.store d'.serve.store := by
  rw [serve_eq d hu, serve_eq d' hu', ← h.playback.playing]
  by_cases hp : d.playback.playing = true
  · have hp' : d'.playback.playing = true := h.playback.playing.symm.trans hp
    have hready := h.playback.ready hp
    rw [if_pos hp, if_pos hp, ← hready]
    by_cases hr : d.playback.ready = true
    · rw [if_pos hr, if_pos hr]
      exact ⟨h.restLoader, hs⟩
    have hr : d.playback.ready = false := Bool.eq_false_iff.mpr hr
    have hr' : d'.playback.ready = false := hready.symm.trans hr
    rw [if_neg (ne_true_of_eq_false hr), if_neg (ne_true_of_eq_false hr)]
    by_cases hh : d.held = true
    · rw [if_pos hh, if_pos (h.held.symm.trans hh)]
      exact ⟨⟨h.held, h.playback, h.told, h.left, .queued (h.playback.job hp), h.file, h.next⟩, hs⟩
    · have hh' : ¬d'.held = true := by rwa [← h.held]
      rw [if_neg hh, if_neg hh']
      have hasked : Asked d d.playback.job := fun hp => ⟨(hu hp).1, hr, rfl⟩
      have hasked' : Asked d' d'.playback.job := fun hp => ⟨(hu' hp).1, hr', rfl⟩
      obtain ⟨-, hperform, hst⟩ := h.perform hL hs (h.playback.job hp) hd hd' hasked hasked'
      exact ⟨hperform.restLoader, hst⟩
  · rw [if_neg hp, if_neg hp]
    exact ⟨h.leave (Bool.eq_false_iff.mpr hp), hs⟩

omit [FileStore σ φ δ] in
theorem awake (h : Parallel L q d d') : Parallel L q d.awake d'.awake where
  held := h.held
  playback := h.playback
  told := rfl
  left := h.left
  loader := h.loader
  file := h.file
  next := h.next

theorem poll [Backed σ φ δ] (hL : L.Lawful) (h : Parallel L q d d')
    (hs : L.store d.store d'.store) (hd : d.CanPresent) (hd' : d'.CanPresent) :
    Parallel L q d.pollLoader d'.pollLoader ∧
      L.store d.pollLoader.store d'.pollLoader.store := by
  have hu : UnderWay d := hd.coherent.underWay
  have hu' : UnderWay d' := hd'.coherent.underWay
  obtain ⟨hl, hl'⟩ | ⟨hl, hl'⟩ | ⟨j, j', hl, hl', hj⟩ := h.loader.cases
  · rw [pollLoader_asleep hl, pollLoader_asleep hl', ← h.told]
    split
    · exact h.awake.serve hL hs hd.sized hd'.sized hu hu'
    · exact ⟨h, hs⟩
  · rw [pollLoader_resting hl, pollLoader_resting hl']
    exact h.serve hL hs hd.sized hd'.sized hu hu'
  · rw [pollLoader_queued hl, pollLoader_queued hl']
    by_cases hh : d.held = true
    · rw [if_pos hh, if_pos (h.held.symm.trans hh)]
      exact ⟨h, hs⟩
    have hh' : ¬d'.held = true := by rwa [← h.held]
    rw [if_neg hh, if_neg hh']
    have hasked : Asked d j := fun hp => ⟨(hu hp).1, hd.coherent.queued j hl hp⟩
    have hasked' : Asked d' j' := fun hp => ⟨(hu' hp).1, hd'.coherent.queued j' hl' hp⟩
    obtain ⟨hok, hperform, hst⟩ := h.perform hL hs hj hd.sized hd'.sized hasked hasked'
    have hunderWay {d : Device size σ φ} {j : Job} (hu : UnderWay d) (hasked : Asked d j) :
        UnderWay (d.perform j).2 := by
      unfold UnderWay
      rw [d.perform_deliver, Playback.deliver_own hasked.own]
      split
      · exact hu
      · exact hu
    rw [← hok]
    split
    · exact hperform.serve hL hst (hd.sized.perform j) (hd'.sized.perform j')
        (hunderWay hu hasked) (hunderWay hu' hasked')
    · exact ⟨hperform.restLoader, hst⟩

end Parallel

/-! ## Lockstep -/

variable {L : Likeness σ φ δ}

/-- Both devices can present, their stores correspond and their tasks have the same to do. -/
structure Lockstep (L : Likeness σ φ δ) (q : Pause) (d d' : Device size σ φ) : Prop where
  left : d.CanPresent
  right : d'.CanPresent
  parallel : Parallel L q d d'
  store : L.store d.store d'.store

namespace Lockstep

theorem look (h : Lockstep L q d d') :
    (d.arrived q).1 = (d'.arrived q).1 ∧ Lockstep L q (d.arrived q).2 (d'.arrived q).2 := by
  obtain ⟨hsame, hnext⟩ := h.parallel.look
  refine ⟨hsame, h.left.look q, h.right.look q, hnext, ?_⟩
  rw [arrived_store, arrived_store]
  exact h.store

variable [FileStore σ φ δ] [Backed σ φ δ]

theorem aside (hL : L.Lawful) (h : Lockstep L q d d') (ha : a.OfPlayer) :
    (a.apply d).1 = (a.apply d').1 ∧ Lockstep L q (a.apply d).2 (a.apply d').2 ∧
      SameScreen d d' (a.apply d).2 (a.apply d').2 := by
  have hcan := h.left.aside ha.ofTasks
  have hcan' := h.right.aside ha.ofTasks
  cases a with
  | poll =>
    obtain ⟨hnext, hstore⟩ := h.parallel.poll hL h.store h.left h.right
    have hdisplay := (poll_display h.left.coherent).1
    have hdisplay' := (poll_display h.right.coherent).1
    exact ⟨rfl, ⟨hcan, hcan', hnext, hstore⟩, .of_eq hdisplay hdisplay'⟩
  | tick =>
    obtain ⟨hsame, hnext, hscreen⟩ := h.parallel.tick h.left h.right
    have hstore (d : Device size σ φ) : d.tick.2.store = d.store := by
      obtain ⟨-, hd, -⟩ | ⟨-, hd, -⟩ | ⟨-, -, -, hd⟩ := d.tick_cases
      all_goals rw [hd]
    refine ⟨congrArg some hsame, ⟨hcan, hcan', hnext, ?_⟩, hscreen⟩
    show L.store d.tick.2.store d'.tick.2.store
    rw [hstore, hstore]
    exact h.store
  | timer => exact ha.elim
  | alter change => exact ha.elim
  | setFault fault => exact ha.elim

end Lockstep

variable [FileStore σ φ δ]

/-- The devices go through the same polls, ticks and looks until the pause has ended for both. -/
inductive Together (q : Pause) :
    Device size σ φ → Device size σ φ → Device size σ φ → Device size σ φ → Prop
  | ended {d d' w w' : Device size σ φ} : d.arrived q = (true, w) → d'.arrived q = (true, w') →
      Together q d d' w w'
  | look {d d' u u' w w' : Device size σ φ} : d.arrived q = (false, u) →
      d'.arrived q = (false, u') → Together q u u' w w' → Together q d d' w w'
  | aside {d d' w w' : Device size σ φ} (a : Aside σ) : a.OfPlayer →
      Together q (a.apply d).2 (a.apply d').2 w w' → Together q d d' w w'

namespace Together

theorem left (h : Together q d d' w w') : Resumes Aside.OfTasks q d w := by
  induction h with
  | ended hd _ => exact .ended hd
  | look hd _ _ ih => exact .look hd ih
  | aside a ha _ ih => exact .aside a ha.ofTasks ih

theorem right (h : Together q d d' w w') : Resumes Aside.OfTasks q d' w' := by
  induction h with
  | ended _ hd => exact .ended hd
  | look _ hd _ ih => exact .look hd ih
  | aside a ha _ ih => exact .aside a ha.ofTasks ih

theorem lockstep [Backed σ φ δ] (hL : L.Lawful) (h : Together q d d' w w')
    (hd : Lockstep L q d d') : Lockstep L q w w' := by
  induction h with
  | ended hw hw' =>
    have hlook := hd.look.2
    rwa [hw, hw'] at hlook
  | look hu hu' _ ih =>
    have hlook := hd.look.2
    rw [hu, hu'] at hlook
    exact ih hlook
  | aside a ha _ ih => exact ih (hd.aside hL ha).2.1

end Together

end Device

end PanelLink
