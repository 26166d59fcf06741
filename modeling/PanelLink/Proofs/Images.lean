import PanelLink.Proofs.Fairness
import PanelLink.Proofs.Holding
import PanelLink.Proofs.Loading
import PanelLink.Proofs.Pixels

/-!
Still images. What the panel gets is the first frame of the file and zeros, whatever stood in the
buffer and however the reads were split; and whatever fails, the file is closed and the animation
that played before is gone.
-/
namespace PanelLink

open Device

variable {size chunk : Nat} {ι σ φ δ ε : Type}

/-! ## Reading so many bytes -/

namespace FileStore

/-- Reads that do not fail come to what follows in the file, however they are split: as long as no
read begins after the last position. -/
theorem Gathers.exact [Disturbance ι] {T : Tree} {contents : Bytes} {d : Disturbed ι Volume}
    {f : FileHandle} {want m : Nat} {out : Gathered × FileHandle × Disturbed ι Volume}
    (h : Gathers want d f m out) (hd : d.Feeds T) (hf : T.get? f.key = some (.file contents))
    (hroom : f.pos + want ≤ Bytes.wordLimit ∨
      f.pos ≤ contents.length ∧ contents.length < Bytes.wordLimit)
    (hout : out.1.failure = none) : out.1.bytes = Volume.slice contents f.pos want := by
  induction h with
  | full => exact (List.take_zero).symm
  | @ended want d d' f f' hread =>
    obtain ⟨t, -, ⟨e, he⟩ | ⟨n, hn, -, hgiven⟩⟩ := hd.read hf (Nat.succ_pos want)
    · cases hread.symm.trans he
    · have hnil : Volume.slice contents f.pos n = [] := by
        have hbytes := congrArg Prod.fst (hread.symm.trans hgiven)
        exact (Except.ok.inj hbytes).symm
      have hend := Volume.drop_of_slice_eq_nil hnil hn
      rw [Volume.slice, hend, List.take_nil]
  | failed => cases hout
  | @more want m d d' f f' bytes out hbytes hread hgathers ih =>
    obtain ⟨t, ht, ⟨e, he⟩ | ⟨n, -, hn, hgiven⟩⟩ := hd.read hf (Nat.succ_pos want)
    · cases hread.symm.trans he
    · cases hread.symm.trans hgiven
      generalize hpiece : Volume.slice contents f.pos n = piece at hgathers ih ⊢
      have hprefix : piece <+: contents.drop f.pos := hpiece ▸ List.take_prefix n _
      have hlength : piece.length = min n (contents.length - f.pos) := by
        rw [← hpiece, Volume.slice, List.length_take, List.length_drop]
      have hfront : Volume.slice contents f.pos piece.length = piece :=
        (List.prefix_iff_eq_take.mp hprefix).symm
      have hsum : piece.length + (want + 1 - piece.length) = want + 1 := by omega
      have hrest : out.1.bytes = Volume.slice contents (f.pos + piece.length)
          (want + 1 - piece.length) := by
        by_cases hlast : want + 1 - piece.length = 0
        · rw [hlast] at hgathers ⊢
          cases hgathers
          exact (List.take_zero).symm
        · have hinside : (f.pos + piece.length) % Bytes.wordLimit = f.pos + piece.length :=
            Nat.mod_eq_of_lt (by omega)
          rw [hinside] at ih
          exact ih ht hf (by dsimp only; omega) hout
      rw [hrest, ← hsum, Volume.slice_add, hfront]
      simp

end FileStore

/-! ## The file of an image -/

variable [FileStore σ φ δ] {path bytes frame : Bytes} {r : Transferred}

/-- How the image at a path is read: the bytes that came, the result, and the record after it. A
file that was opened is closed once, after at most as many reads as a frame has bytes. -/
inductive Recorded.Images (size : Nat) (path : Bytes) (r : Recorded σ) :
    Bytes → Transferred → Recorded σ → Prop
  | unopened {e : StorageError} {s : σ} :
    FileStore.openFile r.store path .reading = (.error e, s) →
      Images size path r [] (.unopened e) (r.note .openFile none s)
  | opened {f g : φ} {s u : σ} {m : Nat} {got : FileStore.Gathered}
      {closed : Except StorageError Unit} {t : Recorded σ} :
    FileStore.openFile r.store path .reading = (.ok f, s) →
    FileStore.Gathers size s f m (got, g, u) → m ≤ size →
    FileStore.closeFile u g = (closed, t.store) →
    t.calls = ⟨.closeFile, some r.issued⟩ ::
      (List.replicate m ⟨.read, some r.issued⟩ ++ ⟨.openFile, some r.issued⟩ :: r.calls) →
      Images size path r got.bytes (.ofOpened (got.failure.elim (.ok ()) .error) closed) t

/-- The answer to a request for an image and the panel after it, by what was read. -/
structure Submits (size : Nat) (r : Transferred) (bytes : Bytes) (p : Display)
    (answer : Except CommandError Unit) (p' : Display) : Prop where
  failed (e : StorageError) : r.failure = some e → answer = .error (.storage e) ∧ p' = p
  empty : r.failure = none → bytes = [] → answer = .error .invalidAsset ∧ p' = p
  shown : r.failure = none → bytes ≠ [] →
    answer = (p.present (bytes.padTo size)).1.mapError .display ∧
      p' = (p.present (bytes.padTo size)).2

theorem Submits.of_failure {e : StorageError} (h : r.failure = some e) (p : Display) :
    Submits size r bytes p (.error (.storage e)) p where
  failed e' he := by
    obtain rfl := Option.some.inj (h.symm.trans he)
    exact ⟨rfl, rfl⟩
  empty hnone := by simp [h] at hnone
  shown hnone := by simp [h] at hnone

namespace Device

omit [FileStore σ φ δ] in
private theorem get_fill_whole {d : Device size σ φ} (hz : d.Sized) (i : Slot)
    (hframe : frame.length = size) : (d.fill i frame).buffers.get i = frame := by
  have hall : (d.buffers.get i).drop (0 + frame.length) = [] := by
    rw [List.drop_eq_nil_iff, hz i]
    omega
  show (d.buffers.set i (Bytes.overlay 0 frame (d.buffers.get i))).get i = frame
  rw [FrameBuffers.get_set_self, Bytes.overlay, List.take_zero, hall, List.append_nil,
    List.nil_append]

private theorem showFile_unopened {d : Device size σ φ} {e : StorageError} {s : σ}
    (ho : FileStore.openFile d.store path .reading = (.error e, s)) :
    showFile path d = (.error (.storage e), { d with store := s }) := by
  have hcall : d.callStore (FileStore.openFile · path .reading) =
      (.error e, { d with store := s }) := by
    simp only [callStore, ho]
  rw [showFile, hcall]

/-- Once the file is open, what it comes to depends on the buffer in nothing. -/
theorem showFile_opened {d : Device size σ φ} (hz : d.Sized) {f g : φ} {s u t : σ}
    {got : FileStore.Gathered} {closed : Except StorageError Unit}
    (ho : FileStore.openFile d.store path .reading = (.ok f, s))
    (hread : FileStore.readFull s f size = (got, g, u)) (hroom : got.bytes.length ≤ size)
    (hclose : FileStore.closeFile u g = (closed, t)) :
    (showFile path d).2.store = t ∧
      Submits size (.ofOpened (got.failure.elim (.ok ()) .error) closed) got.bytes d.display
        (showFile path d).1 (showFile path d).2.display := by
  have hfilled : ({ d with store := t }.fill .first got.bytes).Sized :=
    Sized.fill (d := { d with store := t }) hz hroom .first
  have hwhole : (got.bytes.padTo size).length = size := by
    rw [Bytes.length_padTo]
    omega
  have hframe := get_fill_whole hfilled .first hwhole
  have hcall : d.callStore (FileStore.openFile · path .reading) =
      (.ok f, { d with store := s }) := by
    simp only [callStore, ho]
  rw [showFile, hcall]
  dsimp only
  rw [hread]
  dsimp only
  rw [hclose]
  dsimp only
  cases hfailure : got.failure with
  | some e => exact ⟨rfl, .of_failure rfl d.display⟩
  | none =>
    cases closed with
    | error e => exact ⟨rfl, .of_failure rfl d.display⟩
    | ok =>
      dsimp only
      by_cases hbytes : got.bytes = []
      · rw [if_pos hbytes]
        exact ⟨rfl, nofun, fun _ _ => ⟨rfl, rfl⟩, fun _ hne => absurd hbytes hne⟩
      · rw [if_neg hbytes, hframe]
        rcases hpanel : d.display.present (got.bytes.padTo size) with ⟨e | _, p⟩
        all_goals
          simp only [fill, present, hpanel]
          refine ⟨trivial, nofun, fun _ hnil => absurd hnil hbytes, fun _ _ => ?_⟩
          rw [hpanel]
          exact ⟨rfl, rfl⟩

theorem showFile_images [Backed σ φ δ] {d : Device size (Recorded σ) (Ticket φ)} (hz : d.Sized)
    (path : Bytes) : ∃ bytes r, d.store.Images size path bytes r (showFile path d).2.store ∧
      Submits size r bytes d.display (showFile path d).1 (showFile path d).2.display := by
  rcases ho : FileStore.openFile d.store.store path .reading with ⟨e | f, s⟩
  · have hopen : FileStore.openFile d.store path .reading =
        (.error e, d.store.note .openFile none s) := by
      show d.store.issue .openFile (FileStore.openFile · path .reading) = _
      simp only [Recorded.issue, ho]
    rw [showFile_unopened hopen]
    exact ⟨[], .unopened e, .unopened ho, .of_failure rfl d.display⟩
  · let n := d.store.issued
    let opened : Recorded σ := { d.store.note .openFile (some n) s with issued := n + 1 }
    have hopen : FileStore.openFile d.store path .reading = (.ok ⟨n, f⟩, opened) := by
      show d.store.issue .openFile (FileStore.openFile · path .reading) = _
      simp only [Recorded.issue, ho]
      rfl
    have hroom : (FileStore.readFull opened (⟨n, f⟩ : Ticket φ) size).1.bytes.length ≤ size :=
      Backed.length_gather_le size size opened (⟨n, f⟩ : Ticket φ)
    obtain ⟨m, hgathers⟩ := FileStore.readFull_gathers opened (⟨n, f⟩ : Ticket φ) size
    rcases hread : FileStore.readFull opened (⟨n, f⟩ : Ticket φ) size with ⟨got, g, u⟩
    rw [hread] at hgathers hroom
    rcases hclose : FileStore.closeFile u g with ⟨closed, t⟩
    obtain ⟨hstore, hsubmits⟩ := showFile_opened hz hopen hread hroom hclose
    obtain ⟨hplain, hnumber, hcalls⟩ := hgathers.recorded
    refine ⟨got.bytes, _, ?_, hsubmits⟩
    rw [hstore]
    have hredeemed : ((FileStore.closeFile u.store g.handle).1,
        u.note .closeFile (some g.number) (FileStore.closeFile u.store g.handle).2) =
          (closed, t) := hclose
    obtain ⟨rfl, rfl⟩ := hredeemed
    refine .opened ho hplain hgathers.le rfl ?_
    show ⟨.closeFile, some g.number⟩ :: u.calls = _
    rw [hnumber, hcalls]
    rfl

/-- An image that is read without a failure comes to the first bytes of its file, unless frame and
file both go past the last position. -/
theorem images_exact [Disturbance ι] {r : Recorded (Disturbed ι Volume)}
    {t : Recorded (Disturbed ι Volume)} {contents : Bytes} {x : Transferred}
    (h : r.Images size path bytes x t) (hflow : Disturbance.Flowing r.store.disturbance)
    (hfile : r.store.store.contents? path = some contents)
    (hroom : size ≤ Bytes.wordLimit ∨ contents.length < Bytes.wordLimit) (hx : x.failure = none) :
    bytes = contents.take size := by
  obtain ⟨k, hk, hnode⟩ := Volume.contents?_eq_some hfile
  have hfeeds : r.store.Feeds r.store.store.tree := ⟨rfl, hflow⟩
  obtain ⟨s', hs', ⟨e, hfailed⟩ | ⟨f', hopened, hkey, hpos⟩⟩ := hfeeds.openFile hk hnode
  · cases h with
    | unopened => cases hx
    | opened ho => cases ho.symm.trans hfailed
  · cases h with
    | unopened => cases hx
    | @opened f g s u m got closed _ ho hgathers hm hclose hcalls =>
      cases ho.symm.trans hopened
      have hgot : got.failure = none := by
        cases hfailure : got.failure with
        | none => rfl
        | some e =>
          rw [hfailure] at hx
          cases hx
      have hexact := hgathers.exact hs' (hkey ▸ hnode) (by omega) hgot
      rw [hexact, Volume.slice, hpos, List.drop_zero]

end Device

namespace Scene

variable [Disturbance ι]

/-- A request for a still image: `v` is the device when the animation was stopped, `w` the device
where the request ends. -/
structure ShowsStill (path : Bytes)
    (d v w : Device size (Recorded (Disturbed ι Volume)) (Ticket FileHandle)) (bytes : Bytes)
    (r : Transferred) (answer : Except CommandError Unit) : Prop where
  stopped : ∃ b, (Device.stop d).Reaches (Resumes fun _ => True) b v
  tornDown : v.TornDown
  unseen : v.display.frames = d.display.frames
  images : v.store.Images size path bytes r w.store
  submits : Submits size r bytes v.display answer w.display
  /-- Of reads that give at least a byte until the end of the file it does not matter how they are
  split, and what stood in the buffers never does. -/
  exact (contents : Bytes) : Disturbance.Flowing v.store.store.disturbance →
    v.store.store.store.contents? path = some contents →
    size ≤ Bytes.wordLimit ∨ contents.length < Bytes.wordLimit → r.failure = none →
      bytes = contents.take size ∧ (bytes = [] ↔ contents = [])
  gone : w.TornDown

/-- A still image leaves no residue. Whatever has happened, the request is answered, and it first
stops the animation. Then the file is opened, read and closed, once each. If that succeeds and the
file is not empty, the panel gets one frame, which is the first bytes of the file and zeros;
otherwise it gets none and the answer is the failure, that of a read before that of the close. No
animation plays afterwards. -/
theorem still_leaves_no_residue (hsize : 0 < size) (config : Config) (timing : Timing)
    (store : Disturbed ι Volume) (as : List (Action (Recorded (Disturbed ι Volume)) ε)) :
    let s : Scene size chunk (Recorded (Disturbed ι Volume)) (Ticket FileHandle) ε :=
      (initial config timing (.ofStore store)).after as
    ∀ e path, s.hand = .free e →
      (∀ f, Fair f → ∃ n answer,
        .answered answer ∈ s.events (.request (.showStill path) :: (List.range n).map f)) ∧
      ∀ bs qs x w, (∀ a ∈ bs, a.Waits fun _ => True) →
        s.AnswersLast (.request (.showStill path) :: bs) qs x w →
        ∃ v bytes r answer, x = (.shown answer, e) ∧
          ShowsStill path s.device v w bytes r answer := by
  intro s e path hfree
  have hs : s.Orderly := Orderly.after (.initial config timing (.ofStore store)) as
  have hc := hs.coherent
  have hsettled := hs.free hfree
  have hsized : s.device.Sized := steady_sized.after (Sized.initial timing (.ofStore store)) as
  refine ⟨fun f hf => ?answered, fun bs qs x w hbs hlast => ?shown⟩
  case answered =>
    have hscreens : (Request.showStill path : Request ε).Screens := trivial
    have hdismisses := hscreens.dismisses e hc (unheld hfree)
    have hpassing : ((Request.showStill path).routine e s.device).Meets (Resumes fun _ => True)
        (fun p _ w => Passing p w) (fun _ _ _ => True) s.device :=
      (hdismisses.meets s.device).mono fun _ _ _ hw hp => ⟨2, hw hp⟩
    exact answered_request hfree hpassing hf
  case shown =>
    have hreached := hlast.requested hfree hbs
    rw [Request.routine_showStill, Run.reaches_bind] at hreached
    obtain ⟨answer, u, hstill, hdone⟩ := hreached
    obtain ⟨rfl, rfl⟩ := Run.reaches_done.mp hdone
    obtain ⟨b, v, hstop, hfile⟩ := Run.reaches_bind.mp hstill
    obtain ⟨rfl, rfl⟩ := Run.reaches_done.mp hfile
    obtain ⟨_, hquit⟩ := hstop.meets (stop_meets hc hsettled)
    have hpixels : s.device.HoldsPixels [] := .nil hc hsettled hsized
    obtain ⟨-, hquiet⟩ := hstop.meets hpixels.stop
    obtain ⟨bytes, r, himages, hsubmits⟩ := showFile_images hquiet.1.sized path
    refine ⟨v, bytes, r, _, rfl, ⟨b, hstop⟩, hquit.tornDown, hquiet.2.shown, himages, hsubmits, ?_,
      (hquit.showFile path).tornDown⟩
    intro contents hflow hcontents hroom hr
    have hbytes := images_exact himages hflow hcontents hroom hr
    refine ⟨hbytes, ?_⟩
    rw [hbytes, List.take_eq_nil_iff]
    exact or_iff_right (Nat.ne_of_gt hsize)

/-- A file of one pixel for frames of three, shown while an animation plays on a store that gives
one byte at a time. -/
theorem short_still_amid_animation :
    let volume := ((Volume.fresh 1 64).put [Bytes.ofText "a"] (.file [1, 2, 3])).put
      [Bytes.ofText "s"] (.file [9])
    let store : Disturbed Mishap Volume := ⟨{ readLimit := some 1 }, volume⟩
    let as := [.request (.start (Bytes.ofText "a")), .aside .poll, .aside .tick]
    let bs := [.aside .tick, .aside .poll, .resume]
    let s : Scene 3 1 (Recorded (Disturbed Mishap Volume)) (Ticket FileHandle) Unit :=
      (initial {} ⟨1, 1⟩ (.ofStore store)).after as
    let still := Bytes.ofText "s"
    let shown := s.after (.request (.showStill still) :: bs)
    0 < 3 ∧ s.device.playback.playing = true ∧
    shown.device.display.frames = [[1, 2, 3], [9, 0, 0]] ∧
    shown.device.store.calls.take 4 =
      [⟨.closeFile, some 1⟩, ⟨.read, some 1⟩, ⟨.read, some 1⟩, ⟨.openFile, some 1⟩] ∧
    ∃ v bytes r answer,
      s.events (.request (.showStill still) :: bs) =
        [.quiet, .ticked .idle, .quiet, .answered (.shown answer)] ∧
      ShowsStill still s.device v shown.device bytes r answer := by
  intro volume store as bs s still shown
  have hplaying : s.device.playback.playing = true := by decide +kernel
  have hfree : s.endpoint?.isSome = true := by decide +kernel
  obtain ⟨e, he⟩ := Option.isSome_iff_exists.mp hfree
  have hdone : shown.endpoint?.isSome = true := by decide +kernel
  obtain ⟨e', he'⟩ := Option.isSome_iff_exists.mp hdone
  have hevents : s.events (.request (.showStill still) :: bs) =
      [.quiet, .ticked .idle, .quiet, .answered (.shown (.ok ()))] := by
    decide +kernel
  have hanswer : s.AnswersLast (.request (.showStill still) :: bs) [.quiet, .ticked .idle, .quiet]
      (.shown (.ok ()), e') shown.device := by
    refine ⟨fun answer h => ?_, hevents, ?_⟩
    · simp at h
    · rw [← hand_of_endpoint? he']
  have hwaits : ∀ b ∈ bs, b.Waits fun _ => True := by
    intro b hb
    simp only [bs, List.mem_cons, List.not_mem_nil, or_false] at hb
    obtain rfl | rfl | rfl := hb <;> trivial
  obtain ⟨-, hshows⟩ := @still_leaves_no_residue 3 1 Mishap Unit _ (by decide) {} ⟨1, 1⟩ store as e
    still (hand_of_endpoint? he)
  obtain ⟨v, bytes, r, answer, hx, hstill⟩ := hshows bs _ _ _ hwaits hanswer
  have hshown : answer = .ok () := (Answer.shown.inj (congrArg Prod.fst hx)).symm
  refine ⟨by decide, hplaying, by decide +kernel, by decide +kernel, v, bytes, r, answer, ?_,
    hstill⟩
  rw [hevents, hshown]

end Scene

end PanelLink
