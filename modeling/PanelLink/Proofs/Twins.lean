import PanelLink.Proofs.Drift
import PanelLink.Proofs.Unison

/-!
Two devices of which only the animations differ: how far they have come, what is in their buffers,
and what the loader has read. No command finds that out.
-/
namespace PanelLink

variable {size : Nat} {σ φ δ : Type}

namespace Device

variable {n : Nat} {v v' d d' : Device size σ φ}

/-- Since `v` and `v'` both devices have shown the same frames. -/
def SamePaint (v v' w w' : Device size σ φ) : Prop :=
  ∃ frames, w.display.frames = v.display.frames ++ frames ∧
    w'.display.frames = v'.display.frames ++ frames

theorem SamePaint.refl (v v' : Device size σ φ) : SamePaint v v' v v' :=
  ⟨[], (List.append_nil _).symm, (List.append_nil _).symm⟩

theorem SamePaint.of_eq {v v' w w' : Device size σ φ} (h : w.display.frames = v.display.frames)
    (h' : w'.display.frames = v'.display.frames) : SamePaint v v' w w' :=
  ⟨[], by rw [h, List.append_nil], by rw [h', List.append_nil]⟩

theorem SamePaint.trans {v v' w w' u u' : Device size σ φ} (h : SamePaint v v' w w')
    (h' : SamePaint w w' u u') : SamePaint v v' u u' := by
  obtain ⟨frames, hw, hw'⟩ := h
  obtain ⟨more, hu, hu'⟩ := h'
  refine ⟨frames ++ more, ?_, ?_⟩
  · rw [hu, hw, List.append_assoc]
  · rw [hu', hw', List.append_assoc]

/-- No command can tell the two devices apart. -/
structure Twins (n : Nat) (d d' : Device size σ φ) : Prop where
  left : d.Poised n
  right : d'.Poised n
  playing : d.playback.playing = d'.playback.playing
  releases : d.display.releases = d'.display.releases
  pixels : d.buffers.first.take n = d'.buffers.first.take n

theorem Twins.drift {d' w' : Device size σ φ} (h : Twins n d d') (hd : Drift n d w)
    (hd' : Drift n d' w') : Twins n w w' where
  left := hd.poised
  right := hd'.poised
  playing := by rw [hd.playing, h.playing, hd'.playing]
  releases := by rw [hd.releases, h.releases, hd'.releases]
  pixels := by rw [hd.pixels, h.pixels, hd'.pixels]

def Matched : Likeness.Screens size σ φ :=
  fun v v' n d d' => Twins n d d' ∧ SamePaint v v' d d'

theorem Matched.beside (h : Matched v v' n d d') (s t : σ) (b b' : Bool) :
    Matched v v' n { d with store := s, held := b } { d' with store := t, held := b' } := by
  obtain ⟨⟨hleft, hright, hplaying, hreleases, hpixels⟩, hpaint⟩ := h
  have hleft' :=
    hleft.congr (w := { d with store := s, held := b }) rfl rfl rfl id rfl hleft.sized rfl
  have hright' :=
    hright.congr (w := { d' with store := t, held := b' }) rfl rfl rfl id rfl hright.sized rfl
  exact ⟨⟨hleft', hright', hplaying, hreleases, hpixels⟩, hpaint⟩

/-! ## Raw pixels -/

/-- Raw pixels continue those in front of them, whatever stood behind. -/
theorem overlay_take {start : Nat} {new old : Bytes} (h : start ≤ old.length) :
    (Bytes.overlay start new old).take (start + new.length) = old.take start ++ new := by
  have hlen : (old.take start ++ new).length = start + new.length := by
    rw [List.length_append, List.length_take, Nat.min_eq_left h]
  unfold Bytes.overlay
  rw [← hlen, List.take_left]

/-- Raw pixels leave a device in order, wherever the next ones go. -/
theorem Poised.writeRaw (h : d.Poised n) (hp : d.playback.playing = false) (k : Nat)
    (pixels : Bytes) :
    (Device.writeRaw n pixels d).2.Poised k ∧
      (Device.writeRaw n pixels d).2.playback = d.playback ∧
      (Device.writeRaw n pixels d).2.display.releases = d.display.releases := by
  have hsized := h.sized.writeRaw n pixels
  obtain ⟨b, frames, hw⟩ := d.writeRaw_eq n pixels
  rw [hw] at hsized ⊢
  have hk : d.Poised k := ⟨h.coherent, h.settled, h.sized, h.faultless, fun _ => hp⟩
  exact ⟨hk.congr rfl rfl rfl id rfl hsized rfl, rfl, rfl⟩

namespace Twins

/-- Raw pixels end the same frame on both, or wait in the same place behind the same pixels. -/
theorem writeRaw_alike (pixels : Bytes) (h : d.Poised n) (h' : d'.Poised n)
    (hfront : d.buffers.first.take n = d'.buffers.first.take n) :
    (Device.writeRaw n pixels d).1 = (Device.writeRaw n pixels d').1 ∧
      (Device.writeRaw n pixels d).2.buffers.first.take (Device.writeRaw n pixels d).1.2 =
        (Device.writeRaw n pixels d').2.buffers.first.take (Device.writeRaw n pixels d).1.2 ∧
      SamePaint d d' (Device.writeRaw n pixels d).2 (Device.writeRaw n pixels d').2 := by
  unfold Device.writeRaw
  dsimp only
  generalize hstart : min n size = start
  have hle : start ≤ size := hstart ▸ Nat.min_le_right n size
  have hn : start ≤ n := hstart ▸ Nat.min_le_left n size
  generalize htaken : pixels.take (size - start) = taken
  have hfront : d.buffers.first.take start = d'.buffers.first.take start := by
    have htake (b : Bytes) : b.take start = (b.take n).take start := by
      rw [List.take_take, Nat.min_eq_left hn]
    rw [htake, hfront, ← htake]
  have hframe {d : Device size σ φ} (h : d.Sized) :
      (Bytes.overlay start taken (d.buffers.get .first)).take (start + taken.length) =
        d.buffers.first.take start ++ taken := by
    apply overlay_take
    rw [h .first]
    exact hle
  have hsame := (hframe h.sized).trans (hfront ▸ (hframe h'.sized).symm)
  split
  · rename_i hfull
    have hwhole {d : Device size σ φ} (h : d.Sized) :
        (Bytes.overlay start taken (d.buffers.get .first)).take (start + taken.length) =
          Bytes.overlay start taken (d.buffers.get .first) := by
      have hlen : (Bytes.overlay start taken (d.buffers.get .first)).length = size := by
        rw [Bytes.length_overlay, h .first]
        exact Nat.le_of_eq (by rw [h .first, hfull])
      rw [hfull, List.take_of_length_le (Nat.le_of_eq hlen)]
    rw [hwhole h.sized, hwhole h'.sized] at hsame
    generalize Bytes.overlay start taken (d.buffers.get .first) = frame at hsame ⊢
    generalize Bytes.overlay start taken (d'.buffers.get .first) = frame' at hsame ⊢
    subst hsame
    have hshow {d : Device size σ φ} (h : d.Poised n) :
        ({ d with buffers := d.buffers.set .first frame } : Device size σ φ).display.fault = none :=
      h.faultless
    rw [present_faultless (hshow h), present_faultless (hshow h')]
    exact ⟨rfl, rfl, [frame], rfl, rfl⟩
  · exact ⟨rfl, hsame, .refl d d'⟩

theorem writeRaw (pixels : Bytes) (h : Likeness.Still Matched v v' n d d') :
    (Device.writeRaw n pixels d).1 = (Device.writeRaw n pixels d').1 ∧
      Matched v v' (Device.writeRaw n pixels d).1.2 (Device.writeRaw n pixels d).2
        (Device.writeRaw n pixels d').2 := by
  obtain ⟨⟨h, hpaint⟩, hp, hp'⟩ := h
  obtain ⟨hresult, hpixels, hframes⟩ := writeRaw_alike pixels h.left h.right h.pixels
  obtain ⟨hleft, hplayback, hreleases⟩ := h.left.writeRaw hp (Device.writeRaw n pixels d).1.2 pixels
  obtain ⟨hright, hplayback', hreleases'⟩ :=
    h.right.writeRaw hp' (Device.writeRaw n pixels d).1.2 pixels
  refine ⟨hresult, ⟨⟨hleft, hright, ?_, ?_, hpixels⟩, hpaint.trans hframes⟩⟩
  · rw [hplayback, hplayback', h.playing]
  · rw [hreleases, hreleases', h.releases]

end Twins

end Device

variable [FileStore σ φ δ] {L : Likeness σ φ δ}

/-! ## Their stores -/

def Device.Tasked : Onward size σ φ :=
  fun p d d' w w' => Resumes Aside.OfTasks p d w ∧ Resumes Aside.OfTasks p d' w'

namespace Likeness.Tolerant

open Device

variable {d d' w w' : Device size σ φ} {p : Pause}

theorem resumes (hT : L.Tolerant) (h : L.store d.store d'.store)
    (hw : Tasked p d d' w w') : L.store w.store w'.store := by
  have hleft : L.store w.store d'.store :=
    hw.1.induct (P := fun w => L.store w.store d'.store) (fun _ _ ha h => hT.aside_left ha h)
      (fun w h => by rwa [arrived_store w p]) h
  exact hw.2.induct (P := fun w' => L.store w.store w'.store) (fun _ _ ha h => hT.aside_right ha h)
    (fun w h => by rwa [arrived_store w p]) hleft

theorem teardown (hT : L.Tolerant) (h : L.store d.store d'.store)
    (wasPlaying : Bool) :
    L.store (d.teardown wasPlaying).store (d'.teardown wasPlaying).store := by
  have hleft : L.store d.closeAnimation.store d'.store := by
    unfold closeAnimation
    split
    · exact h
    · exact hT.closeLeft _ h
  have hclose : L.store d.closeAnimation.store d'.closeAnimation.store := by
    generalize d.closeAnimation.store = s at hleft ⊢
    unfold closeAnimation
    split
    · exact hleft
    · exact hT.closeRight _ hleft
  unfold Device.teardown
  cases wasPlaying with
  | false => exact hclose
  | true => exact hclose

end Likeness.Tolerant

namespace Device

variable {n : Nat} {v v' d d' : Device size σ φ}

/-- Without an animation there is no loader to wait for. -/
theorem Poised.vacated_idle (h : d.Poised n) (hp : d.playback.playing = false) :
    Vacated d d.requestStop.2 :=
  ⟨⟨h.coherent.halt, rfl, rfl, rfl, rfl⟩, h.settled.1.symm.trans hp, h.sized, h.faultless⟩

theorem Poised.stop_idle (h : d.Poised n) (hp : d.playback.playing = false) :
    Device.stop d = .done d.playback.playing (d.requestStop.2.teardown d.playback.playing) := by
  have ha : d.playback.loaderActive = false := h.settled.1.symm.trans hp
  rw [Device.stop_eq, ha]
  rfl

/-- A start on an idle device leaves it in order, and it plays exactly if the start succeeds. -/
theorem Poised.launch (h : d.Poised 0) (hp : d.playback.playing = false) (path : Bytes) :
    (Device.launch path d).2.Poised 0 ∧
      (Device.launch path d).2.playback.playing = (Device.launch path d).1.isOk := by
  have hdown := h.tornDown hp
  have hfault : (Device.launch path d).2.display.fault = none := by
    rw [launch_display, h.faultless]
  have hnone {b : Bool} (hn : 0 < 0) : b = false := absurd hn (Nat.lt_irrefl 0)
  obtain ⟨frames, f, hr, -, hplay, -, -, hc, hsettled⟩ | ⟨⟨e, hr⟩, hquit⟩ :=
    (Quit.refl h.coherent hdown).launch path
  · rw [hr, hplay]
    exact ⟨⟨hc, hsettled, h.sized.launch path, hfault, hnone⟩, rfl⟩
  · rw [hr, hquit.tornDown.still]
    exact ⟨⟨hquit.coherent, hquit.tornDown.settled, h.sized.launch path, hfault, hnone⟩, rfl⟩

/-- An image changes nothing but what is in the buffers and on the panel. -/
theorem Poised.showFile [Backed σ φ δ] (h : d.Poised 0) (path : Bytes) :
    Drift 0 d (Device.showFile path d).2 := by
  have hsized := h.sized.showFile path
  obtain ⟨t, b, frames, hw⟩ := d.showFile_eq path
  rw [hw] at hsized ⊢
  exact ⟨h.congr rfl rfl rfl id rfl hsized rfl, rfl, rfl, rfl⟩

namespace Twins

/-! ## Starting -/

/-- A start finds the same on both: it fails and only the stores are left to compare, or it begins
to play from files that correspond. -/
theorem launch_alike (hL : L.Lawful) (hs : L.store d.store d'.store) (hf : d.file = none)
    (hf' : d'.file = none) (path : Bytes) :
    (∃ e s t, Device.launch path d = (.error e, { d with store := s }) ∧
      Device.launch path d' = (.error e, { d' with store := t }) ∧ L.store s t) ∨
    ∃ frames s t f g,
      Device.launch path d =
        (.ok frames, ({ d with store := s, file := some f } : Device _ _ _).beginSession frames) ∧
      Device.launch path d' =
        (.ok frames, ({ d' with store := t, file := some g } : Device _ _ _).beginSession frames) ∧
      L.file f g ∧ L.store s t := by
  have hstat := hL.stat path hs
  unfold Device.launch callStore
  dsimp only
  rcases hx : FileStore.stat d.store path with ⟨m, s⟩
  rcases hy : FileStore.stat d'.store path with ⟨m', t⟩
  rw [hx, hy] at hstat
  obtain ⟨hm, hst⟩ := hstat
  obtain rfl : m = m' := hm
  dsimp only
  rcases m with e | ⟨_ | _, length⟩
  · exact .inl ⟨_, s, t, rfl, rfl, hst⟩
  · dsimp only
    split
    · exact .inl ⟨_, s, t, rfl, rfl, hst⟩
    have hopen := hL.openFile path .reading hst
    rcases hx : FileStore.openFile s path .reading with ⟨r, s'⟩
    rcases hy : FileStore.openFile t path .reading with ⟨r', t'⟩
    rw [hx, hy] at hopen
    obtain ⟨hr, hst⟩ := hopen
    cases hr with
    | error e => exact .inl ⟨_, s', t', rfl, rfl, hst⟩
    | @ok f g hfile =>
      simp only [installFile, hf, hf']
      exact .inr ⟨length / size, s', t', f, g, rfl, rfl, hfile, hst⟩
  · exact .inl ⟨_, s, t, rfl, rfl, hst⟩

theorem launch (hL : L.Lawful) (path : Bytes) (h : Likeness.Still Matched v v' 0 d d')
    (hs : L.store d.store d'.store) :
    (Device.launch path d).1 = (Device.launch path d').1 ∧
      Matched v v' 0 (Device.launch path d).2 (Device.launch path d').2 ∧
      L.store (Device.launch path d).2.store (Device.launch path d').2.store := by
  obtain ⟨⟨h, hpaint⟩, hp, hp'⟩ := h
  have hdown := h.left.tornDown hp
  have hdown' := h.right.tornDown hp'
  obtain ⟨hresult, hst⟩ : (Device.launch path d).1 = (Device.launch path d').1 ∧
      L.store (Device.launch path d).2.store (Device.launch path d').2.store := by
    obtain ⟨e, s, t, hx, hy, hst⟩ | ⟨frames, s, t, f, g, hx, hy, -, hst⟩ :=
      launch_alike hL hs hdown.closed hdown'.closed path
    · rw [hx, hy]
      exact ⟨rfl, hst⟩
    · rw [hx, hy]
      exact ⟨rfl, hst⟩
  obtain ⟨hleft, hplaying⟩ := h.left.launch hp path
  obtain ⟨hright, hplaying'⟩ := h.right.launch hp' path
  have hframes : SamePaint d d' (Device.launch path d).2 (Device.launch path d').2 :=
    .of_eq (by rw [launch_display]) (by rw [launch_display])
  refine ⟨hresult, ⟨⟨hleft, hright, ?_, ?_, rfl⟩, hpaint.trans hframes⟩, hst⟩
  · rw [hplaying, hplaying', hresult]
  · rw [launch_display, launch_display, h.releases]

/-! ## Stopping -/

theorem teardown {w w' : Device size σ φ} (h : Twins n d d') (hw : Vacated d w)
    (hw' : Vacated d' w') (hpixels : w.buffers.first.take n = w'.buffers.first.take n) :
    Likeness.Still Matched w w' n (w.teardown d.playback.playing)
      (w'.teardown d'.playback.playing) := by
  obtain ⟨hleft, hstill⟩ := hw.teardown h.left n
  obtain ⟨hright, hstill'⟩ := hw'.teardown h.right n
  obtain ⟨hbuffers, -, hframes, hreleases⟩ := w.teardown_screen d.playback.playing
  obtain ⟨hbuffers', -, hframes', hreleases'⟩ := w'.teardown_screen d'.playback.playing
  refine ⟨⟨⟨hleft, hright, hstill.trans hstill'.symm, ?_, ?_⟩, .of_eq hframes hframes'⟩,
    hstill, hstill'⟩
  · rw [hreleases, hreleases', hw.halted.releases, hw'.halted.releases, h.releases, h.playing]
  · rw [hbuffers, hbuffers', hpixels]

variable [Backed σ φ δ]

theorem stop (hT : L.Tolerant) (h : Matched v v' n d d') (hs : L.store d.store d'.store) :
    (Device.stop d).Tandem Tasked (fun _ => SamePaint)
      (fun v v' a w b w' => a = b ∧ Likeness.Still Matched v v' n w w' ∧
        L.store w.store w'.store) v v' (Device.stop d') := by
  obtain ⟨h, hpaint⟩ := h
  have hasked : L.store d.requestStop.2.store d'.requestStop.2.store := hs
  by_cases hp : d.playback.playing = true
  · have hp' : d'.playback.playing = true := h.playing.symm.trans hp
    rw [h.left.coherent.stop_eq (h.left.settled.1.symm.trans hp),
      h.right.coherent.stop_eq (h.right.settled.1.symm.trans hp')]
    refine ⟨rfl, hpaint, fun w w' hw => ⟨h.playing, ?_, ?_⟩⟩
    · apply h.teardown (h.left.vacated rfl hw.1) (h.right.vacated rfl hw.2)
      rw [h.left.pixels_nil hp, h.right.pixels_nil hp']
    · rw [h.playing]
      exact hT.teardown (hT.resumes hasked hw) _
  · have hp : d.playback.playing = false := Bool.eq_false_iff.mpr hp
    have hp' : d'.playback.playing = false := h.playing.symm.trans hp
    rw [h.left.stop_idle hp, h.right.stop_idle hp']
    obtain ⟨⟨htwins, hsame⟩, hstill⟩ :=
      h.teardown (h.left.vacated_idle hp) (h.right.vacated_idle hp') h.pixels
    refine ⟨h.playing, ⟨⟨htwins, hpaint.trans hsame⟩, hstill⟩, ?_⟩
    rw [h.playing]
    exact hT.teardown hasked _

/-! ## Showing an image -/

theorem showFile_alike (hL : L.Lawful) (h : d.Poised n) (h' : d'.Poised n)
    (hs : L.store d.store d'.store) (path : Bytes) :
    (Device.showFile path d).1 = (Device.showFile path d').1 ∧
      SamePaint d d' (Device.showFile path d).2 (Device.showFile path d').2 ∧
      L.store (Device.showFile path d).2.store (Device.showFile path d').2.store := by
  have hopen := hL.openFile path .reading hs
  unfold Device.showFile callStore
  dsimp only
  rcases hx : FileStore.openFile d.store path .reading with ⟨r, s⟩
  rcases hy : FileStore.openFile d'.store path .reading with ⟨r', t⟩
  rw [hx, hy] at hopen
  obtain ⟨hr, hst⟩ := hopen
  cases hr with
  | error e => exact ⟨rfl, .refl d d', hst⟩
  | @ok f g hfile =>
    have hread : L.Replies L.file (FileStore.readFull s f size) (FileStore.readFull t g size) :=
      hL.gather size size hst hfile
    have hlen : (FileStore.readFull s f size).1.bytes.length ≤ size :=
      Backed.length_gather_le size size s f
    dsimp only
    rcases hx : FileStore.readFull s f size with ⟨got, f', s'⟩
    rcases hy : FileStore.readFull t g size with ⟨got', g', t'⟩
    rw [hx, hy] at hread
    rw [hx] at hlen
    obtain ⟨hgot, hfile, hst⟩ := hread
    obtain rfl : got = got' := hgot
    have hclose := hL.closeFile hst hfile
    dsimp only
    rcases hx : FileStore.closeFile s' f' with ⟨closed, s''⟩
    rcases hy : FileStore.closeFile t' g' with ⟨closed', t''⟩
    rw [hx, hy] at hclose
    obtain ⟨hclosed, hst⟩ := hclose
    obtain rfl : closed = closed' := hclosed
    have hpad : (got.bytes.padTo size).length = size := by
      rw [Bytes.length_padTo, Nat.max_eq_left hlen]
    have hread {d : Device size σ φ} (h : d.Poised n) (u : σ) :
        (({ d with store := u } : Device size σ φ).fill .first got.bytes).Sized := by
      have hsized : ({ d with store := u } : Device size σ φ).Sized := h.sized
      exact hsized.fill hlen .first
    dsimp only
    split
    · exact ⟨rfl, .refl d d', hst⟩
    · exact ⟨rfl, .refl d d', hst⟩
    split
    · exact ⟨rfl, .refl d d', hst⟩
    · rw [(hread h s'').present_fill h.faultless hpad,
        (hread h' t'').present_fill h'.faultless hpad]
      exact ⟨rfl, ⟨[got.bytes.padTo size], rfl, rfl⟩, hst⟩

theorem showFile (hL : L.Lawful) (path : Bytes) (h : Likeness.Still Matched v v' 0 d d')
    (hs : L.store d.store d'.store) :
    (Device.showFile path d).1 = (Device.showFile path d').1 ∧
      Matched v v' 0 (Device.showFile path d).2 (Device.showFile path d').2 ∧
      L.store (Device.showFile path d).2.store (Device.showFile path d').2.store := by
  obtain ⟨⟨h, hpaint⟩, -⟩ := h
  obtain ⟨hresult, hframes, hst⟩ := showFile_alike hL h.left h.right hs path
  have hnext := h.drift (h.left.showFile path) (h.right.showFile path)
  exact ⟨hresult, ⟨hnext, hpaint.trans hframes⟩, hst⟩

end Twins

end Device

open Device in
theorem Likeness.twins_keepsScreens [Backed σ φ δ] (hL : L.Lawful) (hT : L.Tolerant) :
    L.KeepsScreens (Tasked : Onward size σ φ) (fun _ => SamePaint) Matched where
  store s t h := h.beside s t _ _
  held held h := h.beside _ _ held held
  reset h := ⟨⟨h.1.left.zero, h.1.right.zero, h.1.playing, h.1.releases, rfl⟩, h.2⟩
  playing h := h.1.playing
  delivery h hs := by
    refine ⟨h.2, fun w w' hw => ⟨⟨?_, .refl w w'⟩, hT.resumes hs hw⟩⟩
    exact h.1.drift (h.1.left.resumes hw.1) (h.1.right.resumes hw.2)
  stop h hs := Twins.stop hT h hs
  launch path h hs := Twins.launch hL path h hs
  showFile path h hs := Twins.showFile hL path h hs
  writeRaw pixels h hs := by
    obtain ⟨hresult, hscreens⟩ := Twins.writeRaw pixels h
    refine ⟨hresult, hscreens, ?_⟩
    rw [writeRaw_store, writeRaw_store]
    exact hs

end PanelLink
