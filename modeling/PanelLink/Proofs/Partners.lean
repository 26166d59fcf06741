import PanelLink.Proofs.Holding
import PanelLink.Proofs.Lockstep
import PanelLink.Proofs.Soundness

/-!
Two scenes in lockstep. Commands and tasks take the same turns on both devices; then every answer,
every tick and every frame is the same.
-/
namespace PanelLink

open Device

variable {size chunk : Nat} {σ φ δ ε : Type} {L : Likeness σ φ δ}

/-! ## Between two steps of a command -/

/-- Both devices are poised with `n` raw pixels, which are the same, and their tasks have the same
to do. -/
structure Device.Partners (L : Likeness σ φ δ) (n : Nat) (d d' : Device size σ φ) : Prop where
  left : d.Poised n
  right : d'.Poised n
  parallel : Parallel L .delivery d d'
  pixels : d.buffers.first.take n = d'.buffers.first.take n

def Likeness.Joined (L : Likeness σ φ δ) : Likeness.Screens size σ φ :=
  fun v v' n d d' => Partners L n d d' ∧ SameScreen v v' d d'

def Likeness.Parting (L : Likeness σ φ δ) : Onward size σ φ :=
  fun q v v' w w' => Lockstep L q w w' ∧ SameScreen v v' w w'

namespace Device.Partners

variable {n : Nat} {d d' v v' w w' : Device size σ φ} {a : Aside σ}

theorem lockstep (h : Partners L n d d') (hs : L.store d.store d'.store) :
    Lockstep L .delivery d d' :=
  ⟨h.left.canPresent, h.right.canPresent, h.parallel, hs⟩

theorem of_still (h : d.Poised n) (h' : d'.Poised n) (hp : d.playback.playing = false)
    (hp' : d'.playback.playing = false) (hheld : d.held = d'.held)
    (hpixels : d.buffers.first.take n = d'.buffers.first.take n) : Partners L n d d' :=
  ⟨h, h', .of_tornDown (h.tornDown hp) (h'.tornDown hp') hheld, hpixels⟩

theorem zero (h : Partners L n d d') : Partners L 0 d d' :=
  ⟨h.left.zero, h.right.zero, h.parallel, rfl⟩

theorem beside (h : Partners L n d d') (s t : σ) {b b' : Bool} (hb : b = b') :
    Partners L n ({ d with store := s, held := b } : Device size σ φ)
      ({ d' with store := t, held := b' } : Device size σ φ) where
  left := h.left.congr rfl rfl rfl id rfl h.left.sized rfl
  right := h.right.congr rfl rfl rfl id rfl h.right.sized rfl
  parallel := h.parallel.beside s t hb
  pixels := h.pixels

/-- Raw pixels end the same frame on both, or wait in the same place. -/
theorem writeRaw (pixels : Bytes) (h : Likeness.Still L.Joined v v' n d d') :
    (Device.writeRaw n pixels d).1 = (Device.writeRaw n pixels d').1 ∧
      L.Joined v v' (Device.writeRaw n pixels d).1.2 (Device.writeRaw n pixels d).2
        (Device.writeRaw n pixels d').2 := by
  obtain ⟨⟨h, hscreen⟩, hp, hp'⟩ := h
  obtain ⟨hresult, hpixels, hpaint⟩ := Twins.writeRaw_alike pixels h.left h.right h.pixels
  obtain ⟨hleft, hplayback, hreleases⟩ := h.left.writeRaw hp (Device.writeRaw n pixels d).1.2 pixels
  obtain ⟨hright, hplayback', hreleases'⟩ :=
    h.right.writeRaw hp' (Device.writeRaw n pixels d).1.2 pixels
  have hheld : (Device.writeRaw n pixels d).2.held = (Device.writeRaw n pixels d').2.held := by
    rw [writeRaw_held, writeRaw_held, h.parallel.held]
  have hstill : (Device.writeRaw n pixels d).2.playback.playing = false := by rw [hplayback, hp]
  have hstill' : (Device.writeRaw n pixels d').2.playback.playing = false := by
    rw [hplayback', hp']
  have hsame : SameScreen d d' (Device.writeRaw n pixels d).2 (Device.writeRaw n pixels d').2 :=
    ⟨hpaint, 0, hreleases, hreleases'⟩
  exact ⟨hresult, of_still hleft hright hstill hstill' hheld hpixels, hscreen.trans hsame⟩

variable [FileStore σ φ δ]

/-! ## Stopping -/

/-- The files of both animations are closed. -/
theorem teardown_store (hL : L.Lawful) (hs : L.store w.store w'.store)
    (hfile : Option.Rel L.file w.file w'.file) (wasPlaying : Bool) :
    L.store (w.teardown wasPlaying).store (w'.teardown wasPlaying).store := by
  have hclose : L.store w.closeAnimation.store w'.closeAnimation.store := by
    unfold closeAnimation
    generalize w.file = o at hfile ⊢
    generalize w'.file = o' at hfile ⊢
    cases hfile with
    | none => exact hs
    | some hf => exact (hL.closeFile hs hf).2
  unfold Device.teardown
  cases wasPlaying with
  | false => exact hclose
  | true => exact hclose

theorem teardown (hL : L.Lawful) (h : Partners L n d d') (hw : Vacated d w) (hw' : Vacated d' w')
    {q : Pause} (hparallel : Parallel L q w w') (hs : L.store w.store w'.store)
    (hpixels : w.buffers.first.take n = w'.buffers.first.take n) :
    Likeness.Still L.Joined w w' n (w.teardown d.playback.playing)
        (w'.teardown d'.playback.playing) ∧
      L.store (w.teardown d.playback.playing).store (w'.teardown d'.playback.playing).store := by
  obtain ⟨hleft, hstill⟩ := hw.teardown h.left n
  obtain ⟨hright, hstill'⟩ := hw'.teardown h.right n
  obtain ⟨hbuffers, -, hframes, hreleases⟩ := w.teardown_screen d.playback.playing
  obtain ⟨hbuffers', -, hframes', hreleases'⟩ := w'.teardown_screen d'.playback.playing
  have hplaying := h.parallel.playback.playing
  refine ⟨⟨⟨of_still hleft hright hstill hstill' ?_ ?_, .of_eq hframes hframes', ?_⟩, hstill,
    hstill'⟩, ?_⟩
  · rw [teardown_held, teardown_held, hparallel.held]
  · rw [hbuffers, hbuffers', hpixels]
  · exact ⟨_, hreleases, by rw [hreleases', hplaying]⟩
  · rw [hplaying]
    exact teardown_store hL hs hparallel.file d'.playback.playing

theorem stop [Backed σ φ δ] (hL : L.Lawful) (h : L.Joined v v' n d d')
    (hs : L.store d.store d'.store) :
    (Device.stop d).Tandem Together L.Parting
      (fun v v' a w b w' => a = b ∧ Likeness.Still L.Joined v v' n w w' ∧
        L.store w.store w'.store) v v' (Device.stop d') := by
  obtain ⟨h, hscreen⟩ := h
  have hplaying := h.parallel.playback.playing
  by_cases hp : d.playback.playing = true
  · have hp' : d'.playback.playing = true := hplaying.symm.trans hp
    have hactive {d : Device size σ φ} (h : d.Poised n) (hp : d.playback.playing = true) :
        d.playback.loaderActive = true := h.settled.1.symm.trans hp
    -- A loader in a session has not said that it left, so neither side has an old signal to take.
    have huntold {d : Device size σ φ} (h : d.Poised n) (hp : d.playback.playing = true) :
        d.leftSignal = false := by
      apply Bool.eq_false_iff.mpr
      intro hleft
      have hgone := h.coherent.left hleft
      rw [hactive h hp] at hgone
      cases hgone
    have hsignal : d.leftSignal = d'.leftSignal :=
      (huntold h.left hp).trans (huntold h.right hp').symm
    have hasked : Lockstep L .acknowledgement d.requestStop.2 d'.requestStop.2 :=
      ⟨⟨h.left.coherent.halt, h.left.sized, h.left.faultless⟩,
        ⟨h.right.coherent.halt, h.right.sized, h.right.faultless⟩,
        h.parallel.requestStop fun _ => hsignal, hs⟩
    rw [h.left.coherent.stop_eq (hactive h.left hp), h.right.coherent.stop_eq (hactive h.right hp')]
    refine ⟨rfl, ⟨hasked, hscreen⟩, fun w w' hw => ⟨hplaying, ?_⟩⟩
    have hlockstep := hw.lockstep hL hasked
    apply h.teardown hL (h.left.vacated rfl hw.left) (h.right.vacated rfl hw.right)
      hlockstep.parallel hlockstep.store
    rw [h.left.pixels_nil hp, h.right.pixels_nil hp']
  · have hp : d.playback.playing = false := Bool.eq_false_iff.mpr hp
    have hp' : d'.playback.playing = false := hplaying.symm.trans hp
    have hparallel : Parallel L .delivery d.requestStop.2 d'.requestStop.2 :=
      h.parallel.requestStop fun hq => by cases hq
    rw [h.left.stop_idle hp, h.right.stop_idle hp']
    obtain ⟨⟨⟨hnext, hsame⟩, hstill⟩, hst⟩ := h.teardown hL (h.left.vacated_idle hp)
      (h.right.vacated_idle hp') hparallel hs h.pixels
    exact ⟨hplaying, ⟨⟨hnext, hscreen.trans hsame⟩, hstill⟩, hst⟩

/-! ## Starting, and showing an image -/

theorem launch (hL : L.Lawful) (path : Bytes) (h : Likeness.Still L.Joined v v' 0 d d')
    (hs : L.store d.store d'.store) :
    (Device.launch path d).1 = (Device.launch path d').1 ∧
      L.Joined v v' 0 (Device.launch path d).2 (Device.launch path d').2 ∧
      L.store (Device.launch path d).2.store (Device.launch path d').2.store := by
  obtain ⟨⟨h, hscreen⟩, hp, hp'⟩ := h
  have hdown := h.left.tornDown hp
  have hdown' := h.right.tornDown hp'
  obtain ⟨hleft, -⟩ := h.left.launch hp path
  obtain ⟨hright, -⟩ := h.right.launch hp' path
  obtain ⟨e, s, t, hx, hy, hst⟩ | ⟨frames, s, t, f, g, hx, hy, hfile, hst⟩ :=
    Twins.launch_alike hL hs hdown.closed hdown'.closed path
  · rw [hx] at hleft ⊢
    rw [hy] at hright ⊢
    exact ⟨rfl, ⟨of_still hleft hright hp hp' h.parallel.held rfl, hscreen⟩, hst⟩
  · rw [hx] at hleft ⊢
    rw [hy] at hright ⊢
    refine ⟨rfl, ⟨⟨hleft, hright, ?_, rfl⟩, hscreen⟩, hst⟩
    exact {
      held := h.parallel.held
      playback := .even _
      told := rfl
      left := fun hq => by cases hq
      loader := h.parallel.loader
      file := .some hfile
      next := fun _ hr => by cases hr }

theorem showFile [Backed σ φ δ] (hL : L.Lawful) (path : Bytes)
    (h : Likeness.Still L.Joined v v' 0 d d') (hs : L.store d.store d'.store) :
    (Device.showFile path d).1 = (Device.showFile path d').1 ∧
      L.Joined v v' 0 (Device.showFile path d).2 (Device.showFile path d').2 ∧
      L.store (Device.showFile path d).2.store (Device.showFile path d').2.store := by
  obtain ⟨⟨h, hscreen⟩, hp, hp'⟩ := h
  obtain ⟨hresult, hpaint, hst⟩ := Twins.showFile_alike hL h.left h.right hs path
  have hleft := h.left.showFile path
  have hright := h.right.showFile path
  have hheld : (Device.showFile path d).2.held = (Device.showFile path d').2.held := by
    rw [showFile_held, showFile_held, h.parallel.held]
  have hnext : Partners L 0 (Device.showFile path d).2 (Device.showFile path d').2 :=
    of_still hleft.poised hright.poised (hleft.playing.trans hp) (hright.playing.trans hp') hheld
      rfl
  exact ⟨hresult, ⟨hnext, hscreen.trans ⟨hpaint, 0, hleft.releases, hright.releases⟩⟩, hst⟩

/-! ## Pauses -/

variable [Backed σ φ δ]

theorem aside (hL : L.Lawful) (h : Partners L n d d') (hs : L.store d.store d'.store)
    (ha : a.OfPlayer) :
    (a.apply d).1 = (a.apply d').1 ∧ L.Joined d d' n (a.apply d).2 (a.apply d').2 ∧
      L.store (a.apply d).2.store (a.apply d').2.store := by
  obtain ⟨hsame, hnext, hscreen⟩ := (h.lockstep hs).aside hL ha
  have hleft := h.left.aside ha.ofTasks
  have hright := h.right.aside ha.ofTasks
  have hpixels : (a.apply d).2.buffers.first.take n = (a.apply d').2.buffers.first.take n := by
    rw [hleft.pixels, hright.pixels, h.pixels]
  exact ⟨hsame, ⟨⟨hleft.poised, hright.poised, hnext.parallel, hpixels⟩, hscreen⟩, hnext.store⟩

private theorem together (hL : L.Lawful) (h : Partners L n d d') (hs : L.store d.store d'.store)
    (hw : Together .delivery d d' w w') : Partners L n w w' ∧ L.store w.store w'.store := by
  have hnext := hw.lockstep hL (h.lockstep hs)
  have hleft := h.left.resumes hw.left
  have hright := h.right.resumes hw.right
  have hpixels : w.buffers.first.take n = w'.buffers.first.take n := by
    rw [hleft.pixels, hright.pixels, h.pixels]
  exact ⟨⟨hleft.poised, hright.poised, hnext.parallel, hpixels⟩, hnext.store⟩

end Device.Partners

theorem Likeness.partners_keepsScreens [FileStore σ φ δ] [Backed σ φ δ] (hL : L.Lawful) :
    L.KeepsScreens (Together : Onward size σ φ) L.Parting L.Joined where
  store s t h := ⟨h.1.beside s t h.1.parallel.held, h.2⟩
  held held h := ⟨h.1.beside _ _ (Eq.refl held), h.2⟩
  reset h := ⟨h.1.zero, h.2⟩
  playing h := h.1.parallel.playback.playing
  delivery h hs := by
    refine ⟨⟨h.1.lockstep hs, h.2⟩, fun w w' hw => ?_⟩
    obtain ⟨hnext, hst⟩ := h.1.together hL hs hw
    exact ⟨⟨hnext, .refl w w'⟩, hst⟩
  stop h hs := Partners.stop hL h hs
  launch path h hs := Partners.launch hL path h hs
  showFile path h hs := Partners.showFile hL path h hs
  writeRaw pixels h hs := by
    obtain ⟨hresult, hscreens⟩ := Partners.writeRaw pixels h
    refine ⟨hresult, hscreens, ?_⟩
    rw [writeRaw_store, writeRaw_store]
    exact hs

/-! ## Scenes -/

/-- A frame, a stop, a poll of the loader, a tick, or a look after the command in hand. -/
def Action.Plain : Action σ ε → Prop
  | aside a => a.OfPlayer
  | request r => r.Ordinary
  | resume => True

namespace Scene

variable [FileStore σ φ δ] {s t : Scene size chunk σ φ ε} {a : Action σ ε}

/-- Over the run both scenes have the same events, show the same frames and release as many
images. -/
def Matches (s t : Scene size chunk σ φ ε) (as : List (Action σ ε)) : Prop :=
  s.events as = t.events as ∧ SameScreen s.device t.device (s.after as).device (t.after as).device

abbrev Coupled (L : Likeness σ φ δ) (s t : Scene size chunk σ φ ε) : Prop :=
  Abreast L Together L.Parting L.Joined s t

theorem settle_coupled {run run' : Run (Device size σ φ) (Answer ε × Endpoint chunk φ)}
    {v v' : Device size σ φ}
    (h : run.Tandem Together L.Parting (L.Outcome L.Joined) v v' run')
    (r r' : Request ε) (e e' : Endpoint chunk φ) :
    (settle r e run).1 = (settle r' e' run').1 ∧
      SameScreen v v' (settle r e run).2.device (settle r' e' run').2.device ∧
      Coupled L (settle r e run).2 (settle r' e' run').2 :=
  settle_abreast (fun _ w w' h => ⟨h.2, h.1, .refl w w'⟩) (fun _ w w' h => ⟨h.2, h.1, .refl w w'⟩)
    h r r' e e'

variable [Backed σ φ δ]

theorem Coupled.aside (hL : L.Lawful) (h : Coupled L s t) {x : Aside σ} (hx : x.OfPlayer) :
    (x.apply s.device).1 = (x.apply t.device).1 ∧
      SameScreen s.device t.device (x.apply s.device).2 (x.apply t.device).2 ∧
      Coupled L (s.act (.aside x)).2 (t.act (.aside x)).2 := by
  cases h with
  | free hs ht hpeers hjoined hstore =>
    obtain ⟨htick, ⟨hnext, hscreen⟩, hst⟩ := hjoined.1.aside hL hstore hx
    exact ⟨htick, hscreen, .free hs ht hpeers ⟨hnext, .refl _ _⟩ hst⟩
  | busy hs ht hparting hrun =>
    obtain ⟨htick, hnext, hscreen⟩ := hparting.1.aside hL hx
    refine ⟨htick, hscreen, .busy hs ht ⟨hnext, .refl _ _⟩ fun u u' hu => ?_⟩
    exact hrun u u' (.aside x hx hu)

theorem Coupled.request (hL : L.Lawful) (h : Coupled L s t) {r : Request ε} (hr : r.Ordinary) :
    (s.act (.request r)).1 = (t.act (.request r)).1 ∧
      SameScreen s.device t.device (s.act (.request r)).2.device (t.act (.request r)).2.device ∧
      Coupled L (s.act (.request r)).2 (t.act (.request r)).2 := by
  cases h with
  | @free e e' hs ht hpeers hjoined hstore =>
    have hrun := (Likeness.partners_keepsScreens hL).routine hL hpeers hr hjoined hstore
    rw [act_request hs, act_request ht]
    exact settle_coupled hrun r r e e'
  | busy hs ht hparting hrun =>
    rw [act_request_busy hs, act_request_busy ht]
    exact ⟨rfl, .refl s.device t.device, .busy hs ht hparting hrun⟩

omit [Backed σ φ δ] in
theorem Coupled.resume (h : Coupled L s t) :
    (s.act .resume).1 = (t.act .resume).1 ∧
      SameScreen s.device t.device (s.act .resume).2.device (t.act .resume).2.device ∧
      Coupled L (s.act .resume).2 (t.act .resume).2 := by
  cases h with
  | free hs ht hpeers hjoined hstore =>
    rw [act_resume_free hs, act_resume_free ht]
    exact ⟨rfl, .refl s.device t.device, .free hs ht hpeers hjoined hstore⟩
  | @busy r e p k r' e' k' hs ht hparting hrun =>
    obtain ⟨hsame, hnext⟩ := hparting.1.look
    have hdisplay (d : Device size σ φ) : (d.arrived p).2.display = d.display := by
      obtain hd | ⟨-, hd⟩ := d.arrived_eq p
      · rw [hd]
      · rw [hd]
    have hscreen : SameScreen s.device t.device (s.device.arrived p).2 (t.device.arrived p).2 :=
      .of_eq (hdisplay s.device) (hdisplay t.device)
    rcases hd : s.device.arrived p with ⟨now, d⟩
    rcases hd' : t.device.arrived p with ⟨now', d'⟩
    rw [hd, hd'] at hsame hnext hscreen
    obtain rfl : now = now' := hsame
    cases now with
    | false =>
      rw [act_look hs hd, act_look ht hd']
      refine ⟨rfl, hscreen, .busy hs ht ⟨hnext, .refl _ _⟩ fun u u' hu => ?_⟩
      exact hrun u u' (.look hd hd' hu)
    | true =>
      rw [act_resume hs hd, act_resume ht hd']
      obtain ⟨hevent, hmore, hcoupled⟩ := settle_coupled (hrun d d' (.ended hd hd')) r r' e e'
      exact ⟨hevent, hscreen.trans hmore, hcoupled⟩

theorem Coupled.act (hL : L.Lawful) (h : Coupled L s t) (ha : a.Plain) :
    (s.act a).1 = (t.act a).1 ∧
      SameScreen s.device t.device (s.act a).2.device (t.act a).2.device ∧
      Coupled L (s.act a).2 (t.act a).2 := by
  cases a with
  | aside x =>
    obtain ⟨htick, hscreen, hnext⟩ := h.aside hL ha
    have hevent : (s.act (.aside x)).1 = (t.act (.aside x)).1 := by
      show (x.apply s.device).1.elim _ _ = (x.apply t.device).1.elim _ _
      rw [htick]
    exact ⟨hevent, hscreen, hnext⟩
  | request r => exact h.request hL ha
  | resume => exact h.resume

/-- Coupled scenes say and show the same in every run. -/
theorem Coupled.agree (hL : L.Lawful) (h : Coupled L s t) {as : List (Action σ ε)}
    (has : ∀ a ∈ as, a.Plain) : s.Matches t as := by
  induction as generalizing s t with
  | nil => exact ⟨rfl, .refl s.device t.device⟩
  | cons a as ih =>
    obtain ⟨ha, has⟩ := List.forall_mem_cons.mp has
    obtain ⟨hevent, hscreen, hnext⟩ := h.act hL ha
    obtain ⟨hevents, hmore⟩ := ih hnext has
    unfold Matches
    rw [events, events, hevent, hevents]
    exact ⟨rfl, hscreen.trans hmore⟩

end Scene

end PanelLink
