import PanelLink.Proofs.Fairness
import PanelLink.Proofs.Holding
import PanelLink.Proofs.Reset
import PanelLink.Proofs.Twins

/-!
Raw pixels. They come in pieces of any length and wait at the start of the first buffer until they
make a frame, while animations and images come and go in the same buffer.
-/
namespace PanelLink

open Device Handler

variable {size chunk : Nat} {σ φ δ ε : Type}

/-! ## The pixels that wait -/

namespace Device

/-- The raw pixels `p` wait in the first buffer for the rest of their frame; none wait while an
animation plays. -/
structure HoldsPixels (p : Bytes) (d : Device size σ φ) : Prop where
  coherent : d.Coherent
  settled : d.Settled
  sized : d.Sized
  idle : d.playback.playing = true → p = []
  front : d.buffers.first.take p.length = p

structure IdleAfter (frames : List Bytes) (d : Device size σ φ) : Prop where
  coherent : d.Coherent
  still : d.playback.playing = false
  shown : d.display.frames = frames

variable {p : Bytes} {d w : Device size σ φ} {frames : List Bytes}

theorem HoldsPixels.nil (hc : d.Coherent) (hs : d.Settled) (hz : d.Sized) : d.HoldsPixels [] :=
  ⟨hc, hs, hz, fun _ => rfl, List.take_zero⟩

theorem HoldsPixels.congr (h : d.HoldsPixels p) (hp : w.playback = d.playback)
    (hb : w.buffers = d.buffers)
    (hl : w.loader = d.loader) (hs : w.startSignal = d.startSignal)
    (he : w.leftSignal = true → d.leftSignal = true) (hf : w.file = d.file) : w.HoldsPixels p where
  coherent := h.coherent.congr hp hl hs he (congrArg _ hf)
  settled := by
    unfold Settled
    rw [hp, hf]
    exact h.settled
  sized := by
    unfold Sized
    rw [hb]
    exact h.sized
  idle := by
    rw [hp]
    exact h.idle
  front := by
    rw [hb]
    exact h.front

theorem HoldsPixels.tornDown (h : d.HoldsPixels p) (hp : d.playback.playing = false) : d.TornDown :=
  h.coherent.tornDown h.settled hp

variable [FileStore σ φ δ]

theorem HoldsPixels.aside [Backed σ φ δ] (h : d.HoldsPixels p) (a : Aside σ) :
    (a.apply d).2.HoldsPixels p where
  coherent := h.coherent.aside a
  settled := h.settled.aside h.coherent a
  sized := h.sized.aside a
  idle hp := h.idle ((aside_playing h.coherent a).symm.trans hp)
  front := by
    by_cases hp : d.playback.playing = true
    · rw [h.idle hp]
      exact List.take_zero
    · rw [(h.tornDown (Bool.eq_false_iff.mpr hp)).aside_buffers a]
      exact h.front

omit [FileStore σ φ δ] in
theorem HoldsPixels.look (h : d.HoldsPixels p) (pause : Pause) :
    (d.arrived pause).2.HoldsPixels p := by
  obtain hw | ⟨-, hw⟩ := d.arrived_eq pause
  · rwa [hw]
  · rw [hw]
    exact h.congr rfl rfl rfl rfl nofun rfl

theorem HoldsPixels.resumes [Backed σ φ δ] {ok : Aside σ → Prop} {pause : Pause}
    (h : d.HoldsPixels p)
    (hw : Resumes ok pause d w) : w.HoldsPixels p :=
  hw.induct (P := HoldsPixels p) (fun _ a _ h => h.aside a) (fun _ h => h.look pause) h

theorem IdleAfter.aside (h : d.IdleAfter frames) (a : Aside σ) :
    (a.apply d).2.IdleAfter frames where
  coherent := h.coherent.aside a
  still := (aside_playing h.coherent a).trans h.still
  shown := by
    have htick : d.tick = (.idle, d) := tick_still h.still
    cases a with
    | poll =>
      show d.pollLoader.display.frames = frames
      rw [(poll_display h.coherent).1]
      exact h.shown
    | tick =>
      show d.tick.2.display.frames = frames
      rw [htick]
      exact h.shown
    | timer =>
      show d.pollTimer.display.frames = frames
      unfold pollTimer
      rw [htick, ite_self]
      exact h.shown
    | alter change => exact h.shown
    | setFault fault => exact h.shown

omit [FileStore σ φ δ] in
theorem IdleAfter.look (h : d.IdleAfter frames) (pause : Pause) :
    (d.arrived pause).2.IdleAfter frames := by
  have hc := h.coherent.arrived pause
  obtain ⟨b, hw⟩ := d.arrived_rest pause
  rw [hw] at hc ⊢
  exact ⟨hc, h.still, h.shown⟩

theorem IdleAfter.resumes {ok : Aside σ → Prop} {pause : Pause} (h : d.IdleAfter frames)
    (hw : Resumes ok pause d w) : w.IdleAfter frames :=
  hw.induct (P := IdleAfter frames) (fun _ a _ h => h.aside a) (fun _ h => h.look pause) h

/-! ## The screen -/

def Idling (p : Bytes) : Pause → Device size σ φ → Device size σ φ → Prop :=
  fun _ _ w => w.playback.playing = true → p = []

variable [Backed σ φ δ] {ok : Aside σ → Prop}

/-- A stop leaves the pixels that wait, and shows nothing. -/
theorem HoldsPixels.stop (h : d.HoldsPixels p) :
    (Device.stop d).Meets (Resumes ok) (fun _ _ w => w.playback.playing = false)
      (fun _ _ w => w.HoldsPixels p ∧ w.IdleAfter d.display.frames) d := by
  have hhalt : Halted d d.requestStop.2 := ⟨h.coherent.halt, rfl, rfl, rfl, rfl⟩
  have hidle : d.requestStop.2.IdleAfter d.display.frames := ⟨h.coherent.halt, rfl, rfl⟩
  have hfile : d.file.isSome = d.playback.playing := (h.settled.1.trans h.settled.2).symm
  -- The teardown after the wait keeps the pixels that the wait has kept.
  have hleaves {u : Device size σ φ} (hu : Halted d u) (hgone : u.playback.loaderActive = false)
      (hidle : u.IdleAfter d.display.frames) (hsized : u.Sized)
      (hfront : u.buffers.first.take p.length = p) :
      (u.teardown d.playback.playing).HoldsPixels p ∧
        (u.teardown d.playback.playing).IdleAfter d.display.frames := by
    have hquit := hu.teardown hfile hgone
    have hstill := hquit.tornDown.still
    obtain ⟨hbuffers, -, hframes, -⟩ := u.teardown_screen d.playback.playing
    refine ⟨⟨hquit.coherent, hquit.tornDown.settled, hsized.teardown _, ?_, ?_⟩, hquit.coherent,
      hstill, hframes.trans hidle.shown⟩
    · rw [hstill]
      exact nofun
    · rw [hbuffers]
      exact hfront
  by_cases ha : d.playback.loaderActive = true
  · rw [h.coherent.stop_eq ha]
    refine ⟨rfl, fun u hu => ?_⟩
    have hnone : p = [] := h.idle (h.settled.1.trans ha)
    have hfront : u.buffers.first.take p.length = p := by
      rw [hnone]
      exact List.take_zero
    exact hleaves (hhalt.resumes hu) hu.gone (hidle.resumes hu)
      (steady_sized.resumes hu h.sized) hfront
  · rw [Device.stop_eq, if_neg ha]
    exact hleaves hhalt (Bool.eq_false_iff.mpr ha) hidle h.sized h.front

omit [Backed σ φ δ] in
/-- A start on an idle device leaves no pixels that wait. -/
theorem HoldsPixels.launch (h : d.HoldsPixels p) (hp : d.playback.playing = false) (path : Bytes) :
    (Device.launch path d).2.HoldsPixels [] := by
  have hsized := h.sized.launch path
  obtain ⟨n, f, -, -, -, -, -, hc, hs⟩ | ⟨-, hquit⟩ :=
    (Quit.refl h.coherent (h.tornDown hp)).launch path
  · exact .nil hc hs hsized
  · exact .nil hquit.coherent hquit.tornDown.settled hsized

theorem HoldsPixels.showFile (h : d.HoldsPixels p) (path : Bytes) :
    (Device.showFile path d).2.HoldsPixels [] := by
  have hsized := h.sized.showFile path
  obtain ⟨t, b, frames, hw⟩ := d.showFile_eq path
  rw [hw] at hsized ⊢
  exact .nil (h.coherent.congr rfl rfl rfl id rfl) h.settled hsized

def frameOutcome (left : Bool) : Except DisplayError Unit → Except CommandError Unit
  | .error e => .error (.display e)
  | .ok () => if left then .error .displayOverflow else .ok ()

omit [FileStore σ φ δ] [Backed σ φ δ] in
/-- Raw pixels that reach the end of the buffer go to the panel with what stood before them. -/
theorem writeRaw_full {n : Nat} {x frame : Bytes} (hn : n ≤ size) (hfull : size ≤ n + x.length)
    (hframe : Bytes.overlay n (x.take (size - n)) (d.buffers.get .first) = frame) :
    Device.writeRaw n x d =
      ((frameOutcome (decide (size < n + x.length)) (d.display.present frame).1, 0),
        { d with
          buffers := d.buffers.set .first frame
          display := (d.display.present frame).2 }) := by
  have hlength : (x.take (size - n)).length = size - n := by
    rw [List.length_take]
    omega
  have hend : n + (x.take (size - n)).length = size := by omega
  have hleft : (x.take (size - n)).length < x.length ↔ size < n + x.length := by omega
  unfold Device.writeRaw
  dsimp only
  rw [Nat.min_eq_left hn, if_pos hend, hframe]
  unfold Device.present
  dsimp only
  rcases d.display.present frame with ⟨_ | _, display⟩
  · rfl
  · simp only [frameOutcome, decide_eq_true_eq, hleft]

omit [FileStore σ φ δ] [Backed σ φ δ] in
theorem writeRaw_room {n : Nat} {x : Bytes} (hroom : n + x.length < size) :
    Device.writeRaw n x d = ((.ok (), n + x.length),
      { d with buffers := d.buffers.set .first (Bytes.overlay n x (d.buffers.get .first)) }) := by
  have hstart : min n size = n := Nat.min_eq_left (by omega)
  have htaken : x.take (size - n) = x := List.take_of_length_le (by omega)
  unfold Device.writeRaw
  dsimp only
  rw [hstart, htaken, if_neg (Nat.ne_of_lt hroom), if_neg (Nat.lt_irrefl _)]

omit [FileStore σ φ δ] [Backed σ φ δ] in
/-- Behind the pixels that wait others stand in the buffer with them. -/
theorem HoldsPixels.overlay_front (h : d.HoldsPixels p) (hroom : p.length ≤ size) (taken : Bytes) :
    (Bytes.overlay p.length taken (d.buffers.get .first)).take (p.length + taken.length) =
      p ++ taken := by
  have hlength : (d.buffers.get .first).length = size := h.sized .first
  rw [overlay_take (by omega)]
  exact congrArg (· ++ taken) h.front

omit [FileStore σ φ δ] [Backed σ φ δ] in
private theorem HoldsPixels.overlay_whole (h : d.HoldsPixels p) {taken : Bytes}
    (hend : p.length + taken.length = size) :
    Bytes.overlay p.length taken (d.buffers.get .first) = p ++ taken := by
  have hlength : (d.buffers.get .first).length = size := h.sized .first
  have hwhole : (Bytes.overlay p.length taken (d.buffers.get .first)).length = size := by
    rw [Bytes.length_overlay (by omega), hlength]
  rw [← h.overlay_front (by omega) taken, hend, List.take_of_length_le (Nat.le_of_eq hwhole)]

/-- Raw pixels wait behind those that wait already, or they fill a frame with them, which goes to
the panel; what is left over is dropped, and so is the frame if the panel refuses it. -/
theorem HoldsPixels.writeRaw (h : d.HoldsPixels p) (hp : d.playback.playing = false)
    (hroom : p.length < size)
    (x : Bytes) :
    (p.length + x.length < size ∧
      (Device.writeRaw p.length x d).1 = (.ok (), (p ++ x).length) ∧
      (Device.writeRaw p.length x d).2.HoldsPixels (p ++ x) ∧
      (Device.writeRaw p.length x d).2.display = d.display) ∨
    (size ≤ p.length + x.length ∧
      (Device.writeRaw p.length x d).1 =
        (frameOutcome (decide (size < p.length + x.length))
          (d.display.present (p ++ x.take (size - p.length))).1, 0) ∧
      (Device.writeRaw p.length x d).2.HoldsPixels [] ∧
      (Device.writeRaw p.length x d).2.display =
        (d.display.present (p ++ x.take (size - p.length))).2) := by
  have hsized := h.sized.writeRaw p.length x
  have hpixels {q : Bytes} (hq : (Device.writeRaw p.length x d).2.buffers.first.take q.length = q) :
      (Device.writeRaw p.length x d).2.HoldsPixels q := by
    obtain ⟨b, frames, hw⟩ := d.writeRaw_eq p.length x
    rw [hw] at hsized hq ⊢
    refine ⟨h.coherent.congr rfl rfl rfl id rfl, h.settled, hsized, fun hplays => ?_, hq⟩
    have hplays : d.playback.playing = true := hplays
    rw [hp] at hplays
    cases hplays
  by_cases hfull : size ≤ p.length + x.length
  · have hend : p.length + (x.take (size - p.length)).length = size := by
      rw [List.length_take]
      omega
    have hwrite := writeRaw_full (Nat.le_of_lt hroom) hfull (h.overlay_whole hend)
    exact .inr ⟨hfull, by rw [hwrite], hpixels List.take_zero, by rw [hwrite]⟩
  · have hless : p.length + x.length < size := Nat.lt_of_not_le hfull
    have hwrite := writeRaw_room (d := d) hless
    refine .inl ⟨hless, ?_, hpixels ?_, ?_⟩
    · rw [hwrite, List.length_append]
    · rw [hwrite, List.length_append]
      exact h.overlay_front (Nat.le_of_lt hroom) x
    · rw [hwrite]

end Device

/-! ## Commands -/

/-- The raw pixels that wait after a packet is carried out, if `p` wait before it. -/
def Endpoint.pixels (size : Nat) (e : Endpoint chunk φ) (p : Bytes) (q : Packet) : Bytes :=
  match q.command with
  | .writeDisplay => if p.length + q.payload.length < size then p ++ q.payload else []
  | .chooseImage =>
    match e.pathOf q.payload with
    | .ok _ => []
    | .error _ => p
  | .format => []
  | _ => p

def Request.pixels (size : Nat) (e : Endpoint chunk φ) (p : Bytes) : Request ε → Bytes
  | .frame _ bytes =>
    match Packet.decode bytes with
    | .ok q => e.pixels size p q
    | .error _ => p
  | _ => p

/-- Not a direct request for an animation or an image; these come from the host only. -/
def Request.OfHost : Request ε → Prop
  | .start _ | .showStill _ => False
  | _ => True

def Action.OfHost : Action σ ε → Prop
  | .request r => r.OfHost
  | _ => True

section

variable {e : Endpoint chunk φ} {p : Bytes}

/-- There are always fewer than a frame needs. -/
theorem Endpoint.length_pixels (hroom : p.length < size) (q : Packet) :
    (e.pixels size p q).length < size := by
  have hsize : 0 < size := Nat.zero_lt_of_lt hroom
  unfold pixels
  split
  · split
    · rwa [List.length_append]
    · exact hsize
  · split
    · exact hsize
    · exact hroom
  · exact hsize
  · exact hroom

theorem Request.length_pixels (hroom : p.length < size) (r : Request ε) :
    (r.pixels size e p).length < size := by
  unfold pixels
  split
  · split
    · exact Endpoint.length_pixels hroom _
    · exact hroom
  · exact hroom

theorem Endpoint.pixels_eq {q : Packet} (hq : q.command.plain = true ∨ q.command.brief = true) :
    e.pixels size p q = p := by
  unfold pixels
  cases hc : q.command with
  | writeDisplay | chooseImage | format => simp [Command.plain, Command.brief, hc] at hq
  | _ => rfl

end

namespace Handler

variable [FileStore σ φ δ] [Backed σ φ δ] {ok : Aside σ → Prop} {p : Bytes}
  {s : Serving chunk φ ε} {v d : Device size σ φ}

def HoldingPixels (p : Bytes) : Assertion size chunk σ φ ε :=
  fun _ s d => d.HoldsPixels p ∧ s.endpoint.cursor = p.length

theorem holdingPixels_plain : KeptByPlain (Resumes ok) (Idling p)
    fun _ : CommandHandle φ δ => (HoldingPixels p : Assertion size chunk σ φ ε) where
  pause h _ := ⟨h.1.idle, fun _ hw => ⟨h.1.resumes hw, h.2⟩⟩
  outbox _ h := h
  held _ h := ⟨h.1.congr rfl rfl rfl rfl id rfl, h.2⟩
  cwd _ h := h
  clock _ h := h
  openFile _ h := by split <;> exact ⟨h.1.congr rfl rfl rfl rfl id rfl, h.2⟩
  create _ h := by split <;> exact ⟨h.1.congr rfl rfl rfl rfl id rfl, h.2⟩
  closeFile h := ⟨h.1.congr rfl rfl rfl rfl id rfl, h.2⟩
  read _ h := ⟨h.1.congr rfl rfl rfl rfl id rfl, h.2⟩
  openDir _ h := by split <;> exact ⟨h.1.congr rfl rfl rfl rfl id rfl, h.2⟩
  readDir h := ⟨h.1.congr rfl rfl rfl rfl id rfl, h.2⟩
  closeDir h := ⟨h.1.congr rfl rfl rfl rfl id rfl, h.2⟩
  mkdir _ h := ⟨h.1.congr rfl rfl rfl rfl id rfl, h.2⟩
  usedBlocks h := ⟨h.1.congr rfl rfl rfl rfl id rfl, h.2⟩

omit [Backed σ φ δ] in
theorem holdingPixels_free : Free (HoldingPixels p : Assertion size chunk σ φ ε) :=
  fun _ _ _ _ _ hcursor h => ⟨h.1.congr rfl rfl rfl rfl id rfl, hcursor.trans h.2⟩

/-- Where nothing plays raw pixels wait behind the others, or the frame is full. -/
theorem paint_holdingPixels {R T : Pause → Device size σ φ → Device size σ φ → Prop}
    (h : HoldingPixels p v s d) (hp : d.playback.playing = false) (hroom : p.length < size)
    (x : Bytes) :
    (on (paint x) s d).Meets R T
      (fun v y w => HoldingPixels (if p.length + x.length < size then p ++ x else []) v y.2 w)
        v := by
  obtain ⟨hpixels, hcursor⟩ := h
  rw [on_paint, hcursor]
  obtain ⟨hless, hwrite, hw, -⟩ | ⟨hfull, hwrite, hw, -⟩ := hpixels.writeRaw hp hroom x
  · rw [if_pos hless]
    exact ⟨hw, congrArg Prod.snd hwrite⟩
  · rw [if_neg (Nat.not_lt.mpr hfull)]
    exact ⟨hw, congrArg Prod.snd hwrite⟩

/-- A stop first, and then something that finds an idle device with the pixels that waited. -/
theorem HoldsPixels.stop_then {α : Type} (h : d.HoldsPixels p) {q : Bytes}
    {Q : Device size σ φ → α → Device size σ φ → Prop}
    {f : Bool → Device size σ φ → Run (Device size σ φ) α}
    (hf : ∀ v b w, w.HoldsPixels p → w.playback.playing = false →
      (f b w).Meets (Resumes ok) (Idling q) Q v) :
    ((Device.stop d).bind f).Meets (Resumes ok) (Idling q) Q d := by
  have hquiet (p : Pause) (v w : Device size σ φ) (hw : w.playback.playing = false) :
      Idling q p v w := by
    unfold Idling
    rw [hw]
    exact nofun
  rw [Run.meets_bind]
  exact (h.stop.mono hquiet).imp fun v b w hw => hf v b w hw.1 hw.2.still

theorem format_holdingPixels (h : HoldingPixels p d s d) :
    (on (format : Handler size chunk σ φ ε Reply) s d).Meets (Resumes ok) (Idling [])
      (fun v x w => HoldingPixels [] v x.2 w) d := by
  rw [on_format]
  refine HoldsPixels.stop_then h.1 fun v b w hw _ => ?_
  obtain ⟨x, t, hwipe, -⟩ := wipe_cases s w
  rw [hwipe]
  have hnil : w.HoldsPixels [] := .nil hw.coherent hw.settled hw.sized
  exact ⟨hnil.congr rfl rfl rfl rfl id rfl, rfl⟩

/-- A path that means nothing shows nothing; any other leaves a buffer without raw pixels. -/
theorem chooseImage_holdingPixels (h : HoldingPixels p d s d) (payload : Bytes) :
    let q := match s.endpoint.pathOf payload with
      | .ok _ => []
      | .error _ => p
    (on (chooseImage payload) s d).Meets (Resumes ok) (Idling q)
      (fun v x w => HoldingPixels q v x.2 w) d := by
  rw [on_chooseImage]
  cases s.endpoint.pathOf payload with
  | error x => exact h
  | ok path =>
    have hstart : (Device.start path d).Meets (Resumes ok) (Idling [])
        (fun _ _ w => w.HoldsPixels []) d :=
      HoldsPixels.stop_then h.1 fun v b w hw hstill => hw.launch hstill path
    have hshow : (Device.showStill path d).Meets (Resumes ok) (Idling [])
        (fun _ _ w => w.HoldsPixels []) d :=
      HoldsPixels.stop_then h.1 fun v b w hw _ => hw.showFile path
    dsimp only
    split
    · rw [Run.meets_bind]
      exact hstart.imp fun v x w hw => ⟨hw, rfl⟩
    · rw [Run.meets_bind]
      exact hshow.imp fun v x w hw => ⟨hw, rfl⟩

private theorem writeDisplay_holdingPixels (h : HoldingPixels p d s d) (hroom : p.length < size)
    (x : Bytes) :
    let q := if p.length + x.length < size then p ++ x else []
    (on (writeDisplay x) s d).Meets (Resumes ok) (Idling q)
      (fun v y w => HoldingPixels q v y.2 w) d := by
  rw [on_writeDisplay]
  by_cases hnil : x = []
  · rw [if_pos hnil, hnil, List.append_nil, List.length_nil, Nat.add_zero, if_pos hroom]
    exact h
  · rw [if_neg hnil]
    by_cases hplays : d.playback.playing = true
    · rw [if_pos hplays]
      exact HoldsPixels.stop_then h.1 fun v b w hw hstill =>
        paint_holdingPixels ⟨hw, h.2⟩ hstill hroom x
    · rw [if_neg hplays]
      exact paint_holdingPixels h (Bool.eq_false_iff.mpr hplays) hroom x

private theorem execute_holdingPixels (q : Packet) (h : HoldingPixels p d s d)
    (hroom : p.length < size) :
    (on (execute q) s d).Meets (Resumes ok) (Idling (s.endpoint.pixels size p q))
      (fun v x w => HoldingPixels (s.endpoint.pixels size p q) v x.2 w) d := by
  have hkeeps {c : Handler size chunk σ φ ε Reply}
      (hc : Keeps (Resumes ok) (Idling p) (HoldingPixels p) c) :
      (on c s d).Meets (Resumes ok) (Idling p) (fun v x w => HoldingPixels p v x.2 w) d :=
    (hc d s d h).imp fun v x w hx => by obtain ⟨_ | _, _⟩ := x <;> exact hx
  by_cases hplain : q.command.plain = true
  · rw [Endpoint.pixels_eq (.inl hplain)]
    exact hkeeps (holdingPixels_plain.plain q hplain)
  by_cases hbrief : q.command.brief = true
  · rw [Endpoint.pixels_eq (.inr hbrief)]
    exact hkeeps (holdingPixels_free.brief q hbrief)
  unfold execute Endpoint.pixels
  cases hcommand : q.command with
  | format => exact format_holdingPixels h
  | chooseImage => exact chooseImage_holdingPixels h q.payload
  | writeDisplay => exact writeDisplay_holdingPixels h hroom q.payload
  | _ => simp [Command.plain, Command.brief, hcommand] at hplain hbrief

end Handler

section

variable [FileStore σ φ δ] [Backed σ φ δ] {ok : Aside σ → Prop} {p : Bytes}

/-- After a request the pixels wait that should, and the next go behind them. -/
theorem Request.routine_holdingPixels {r : Request ε} (hr : r.OfHost) {e : Endpoint chunk φ}
    {d : Device size σ φ} (h : d.HoldsPixels p) (hcursor : e.cursor = p.length)
    (hroom : p.length < size) :
    (r.routine e d).Meets (Resumes ok) (Idling (r.pixels size e p))
      (fun _ x w => w.HoldsPixels (r.pixels size e p) ∧ x.2.cursor = (r.pixels size e p).length)
        d := by
  cases r with
  | start path => exact hr.elim
  | showStill path => exact hr.elim
  | stop => exact HoldsPixels.stop_then h fun v b w hw _ => ⟨hw, hcursor⟩
  | loadConfig => exact ⟨h.congr rfl rfl rfl rfl id rfl, hcursor⟩
  | frame transport bytes =>
    have hholding : HoldingPixels p d (⟨e, .empty transport⟩ : Serving chunk φ ε) d := ⟨h, hcursor⟩
    have hhandle : (Handler.on (Handler.handle bytes) ⟨e, .empty transport⟩ d).Meets (Resumes ok)
        (Idling ((frame transport bytes).pixels size e p))
        (fun v x w => HoldingPixels ((frame transport bytes).pixels size e p) v x.2 w) d := by
      unfold Handler.handle pixels
      dsimp only
      cases Packet.decode bytes with
      | error c => exact hholding
      | ok q => exact execute_holdingPixels q hholding hroom
    rw [routine_frame, Conduct.on_serve_handle rfl, Run.bind_bind, Run.meets_bind]
    refine hhandle.imp fun v x w hx => ?_
    rw [Run.meets_bind]
    have hsending : KeptBySending (Resumes ok) (Idling ((frame transport bytes).pixels size e p))
        (HoldingPixels ((frame transport bytes).pixels size e p) : Assertion size chunk σ φ ε) :=
      holdingPixels_plain.sending .none
    exact (hsending.conclude x.1 v x.2 w hx).imp fun v y w hy => hy

end

/-! ## The answer to raw pixels -/

namespace Device

variable [FileStore σ φ δ]

/-- `v` is the device once an animation that plays on `d` is stopped. -/
def Stills (d v : Device size σ φ) : Prop :=
  if d.playback.playing then ∃ b, (Device.stop d).Reaches (Resumes fun _ => True) b v else v = d

/-- The status for a frame that is full, by the answer of the panel. -/
def frameStatus (left : Bool) : Except DisplayError Unit → Status
  | .error _ => .invalidCommand
  | .ok () => if left then .widthOutOfBounds else .success

/-- The pixels `x` come behind `p`. As long as they do not fill a frame the panel gets nothing.
Otherwise it gets one frame, of all that there is room for, and the rest is dropped. -/
inductive Paints (p x : Bytes) (d : Device size σ φ) : Status → Device size σ φ → Prop
  | waiting {w : Device size σ φ} : p.length + x.length < size →
      w.display.frames = d.display.frames → Paints p x d .success w
  | filling {v w : Device size σ φ} : size ≤ p.length + x.length →
      d.Stills v → v.display.frames = d.display.frames →
      w.display.frames = (v.display.present (p ++ x.take (size - p.length))).2.frames →
      Paints p x d (frameStatus (decide (size < p.length + x.length))
        (v.display.present (p ++ x.take (size - p.length))).1) w

variable {p x : Bytes} {d v w : Device size σ φ} {status : Status}

theorem Paints.congr (h : d.Paints p x status v) (hw : w.display.frames = v.display.frames) :
    d.Paints p x status w := by
  cases h with
  | waiting hless hframes => exact .waiting hless (hw.trans hframes)
  | filling hfull hstills hidle hframes =>
    exact .filling hfull hstills hidle (hw.trans hframes)

omit [FileStore σ φ δ] in
private theorem finalReply_frameOutcome (left : Bool) (result : Except DisplayError Unit) :
    finalReply ((frameOutcome left result).map fun _ => Handler.done) =
      .ofStatus (frameStatus left result) := by
  rcases result with _ | _
  · rfl
  · cases left <;> rfl

variable [Backed σ φ δ]

private theorem HoldsPixels.stills (h : d.HoldsPixels p) (hv : d.Stills v) :
    v.HoldsPixels p ∧ v.IdleAfter d.display.frames := by
  unfold Stills at hv
  split at hv
  · obtain ⟨b, hreached⟩ := hv
    obtain ⟨-, hquiet⟩ := hreached.meets h.stop
    exact hquiet
  · rename_i hplays
    rw [hv]
    exact ⟨h, h.coherent, Bool.eq_false_iff.mpr hplays, rfl⟩

/-- Once nothing plays raw pixels come to what they should, and still nothing plays. -/
theorem HoldsPixels.paints (h : d.HoldsPixels p) (hv : d.Stills v) (hroom : p.length < size)
    (x : Bytes) :
    ∃ status, finalReply ((Device.writeRaw p.length x v).1.1.map fun _ => Handler.done) =
        .ofStatus status ∧
      d.Paints p x status (Device.writeRaw p.length x v).2 ∧
      (Device.writeRaw p.length x v).2.IdleAfter
        (Device.writeRaw p.length x v).2.display.frames := by
  obtain ⟨hpixels, hidle⟩ := h.stills hv
  have hstill : (Device.writeRaw p.length x v).2.playback.playing = false := by
    obtain ⟨b, frames, hw⟩ := v.writeRaw_eq p.length x
    rw [hw]
    exact hidle.still
  obtain ⟨hless, hwrite, hw, hdisplay⟩ | ⟨hfull, hwrite, hw, hdisplay⟩ :=
    hpixels.writeRaw hidle.still hroom x
  · refine ⟨.success, by rw [hwrite]; rfl, .waiting hless ?_, hw.coherent, hstill, rfl⟩
    rw [hdisplay]
    exact hidle.shown
  · refine ⟨_, ?_, .filling hfull hv hidle.shown ?_, hw.coherent, hstill, rfl⟩
    · rw [hwrite]
      exact finalReply_frameOutcome _ _
    · rw [hdisplay]

end Device

/-- The last reply is through at once or after a pause, and the host gets it unless the transport
refuses one. -/
theorem Conduct.conclude_reaches {R : Pause → Device size σ φ → Device size σ φ → Prop}
    {result : Except CommandError Reply} {e : Endpoint chunk φ} {transport : Transport ε}
    {d w : Device size σ φ} {y : Except ε Status × Serving chunk φ ε}
    (h : (Conduct.on (conclude result) ⟨e, .empty transport⟩ d).Reaches R y w) :
    (w = d ∨ R .delivery d w) ∧ ((∀ n, transport.refuse n = none) →
      y.1 = .ok (finalReply result).status ∧ y.2.outbox.sent = [finalReply result]) := by
  constructor
  · obtain ⟨answer, o, -, hrun | hrun⟩ := conclude_cases result ⟨e, .empty transport⟩ d
    · rw [hrun, Run.reaches_done] at h
      exact .inl h.2
    · rw [hrun] at h
      cases h with
      | resumed hw hdone => exact .inr ((Run.reaches_done.mp hdone).2 ▸ hw)
  · intro htakes
    have hfree : (Outbox.empty transport).Free := ⟨rfl, htakes⟩
    obtain ⟨rfl, -⟩ := (conclude_delivers (s := ⟨e, .empty transport⟩) hfree result).reaches h
    exact ⟨rfl, rfl⟩

section

variable [FileStore σ φ δ] {p : Bytes} {d w : Device size σ φ} {e : Endpoint chunk φ}
  {transport : Transport ε}

/-- Raw pixels reach the screen once nothing plays. -/
theorem Handler.writeDisplay_reaches {s : Serving chunk φ ε} {x : Bytes} (hne : x ≠ [])
    {y : Except CommandError Reply × Serving chunk φ ε}
    (h : (on (writeDisplay x) s d).Reaches (Resumes fun _ => True) y w) :
    ∃ v, d.Stills v ∧ (on (paint x) s v).Reaches (Resumes fun _ => True) y w := by
  rw [on_writeDisplay, if_neg hne] at h
  by_cases hplays : d.playback.playing = true
  · rw [if_pos hplays, Run.reaches_bind] at h
    obtain ⟨b, v, hstop, hpaint⟩ := h
    have hstills : d.Stills v := by
      unfold Stills
      rw [if_pos hplays]
      exact ⟨b, hstop⟩
    exact ⟨v, hstills, hpaint⟩
  · rw [if_neg hplays] at h
    have hstills : d.Stills d := by
      unfold Stills
      rw [if_neg hplays]
    exact ⟨d, hstills, h⟩

/-- What comes of a frame that carries raw pixels. -/
theorem Request.frame_paints [Backed σ φ δ] {bytes : Bytes} {q : Packet}
    {x : Answer ε × Endpoint chunk φ}
    (h : d.HoldsPixels p) (hcursor : e.cursor = p.length) (hroom : p.length < size)
    (hdecode : Packet.decode bytes = .ok q) (hc : q.command = .writeDisplay)
    (hne : q.payload ≠ [])
    (hreached : ((frame transport bytes).routine e d).Reaches (Resumes fun _ => True) x w) :
    ∃ status, d.Paints p q.payload status w ∧ ((∀ n, transport.refuse n = none) →
      x.1 = .served (.ok status) [.ofStatus status]) := by
  have hexecute : (execute q : Handler size chunk σ φ ε Reply) = writeDisplay q.payload := by
    unfold execute
    rw [hc]
  rw [routine_frame, Conduct.on_serve _ _ hdecode, hexecute, Run.reaches_bind] at hreached
  obtain ⟨y, u, hserved, hanswer⟩ := hreached
  rw [Run.reaches_bind] at hserved
  obtain ⟨z, t, hcommand, hconclude⟩ := hserved
  obtain ⟨v, hstills, hpaint⟩ := writeDisplay_reaches hne hcommand
  rw [on_paint, Run.reaches_done] at hpaint
  obtain ⟨rfl, rfl⟩ := hpaint
  rw [Run.reaches_done] at hanswer
  obtain ⟨rfl, rfl⟩ := hanswer
  have hcursor : (⟨e, .empty transport⟩ : Serving chunk φ ε).endpoint.cursor = p.length := hcursor
  dsimp only at hconclude
  rw [hcursor] at hconclude
  obtain ⟨status, hstatus, hpaints, hidle⟩ := h.paints hstills hroom q.payload
  obtain ⟨hpause, hsent⟩ := Conduct.conclude_reaches hconclude
  rw [hstatus] at hsent
  have hframes : w.display.frames = (Device.writeRaw p.length q.payload v).2.display.frames := by
    obtain rfl | hpause := hpause
    · rfl
    · exact (hidle.resumes hpause).shown
  refine ⟨status, hpaints.congr hframes, fun htakes => ?_⟩
  obtain ⟨hanswer, hreplies⟩ := hsent htakes
  rw [hanswer, hreplies]
  rfl

end

/-! ## Runs -/

namespace Scene

variable [FileStore σ φ δ]

def drawn (s : Scene size chunk σ φ ε) (p : Bytes) : Action σ ε → Bytes
  | .request r =>
    match s.hand with
    | .free e => r.pixels size e p
    | .busy .. => p
  | _ => p

/-- The raw pixels that wait after a run. -/
def pixels (s : Scene size chunk σ φ ε) (p : Bytes) : List (Action σ ε) → Bytes
  | [] => p
  | a :: as => (s.act a).2.pixels (s.drawn p a) as

structure Draws (p : Bytes) (s : Scene size chunk σ φ ε) : Prop where
  orderly : s.Orderly
  idle : s.device.playback.playing = true → p = []
  room : p.length < size
  sound : s.Sound (fun _ => True) (fun e d => d.HoldsPixels p ∧ e.cursor = p.length)
    (fun _ _ => Idling p) (fun _ _ _ x w => w.HoldsPixels p ∧ x.2.cursor = p.length)

variable {p : Bytes} {s : Scene size chunk σ φ ε}

theorem Draws.initial (hsize : 0 < size) (config : Config) (timing : Timing) (store : σ) :
    (initial config timing store : Scene size chunk σ φ ε).Draws [] where
  orderly := .initial config timing store
  idle _ := rfl
  room := hsize
  sound := ⟨.nil (.initial timing store) (.initial timing store) (.initial timing store), rfl⟩

/-- What is left of a request leaves the pixels that it should. -/
theorem Draws.settle {r : Request ε} {e : Endpoint chunk φ}
    {run : Run (Device size σ φ) (Answer ε × Endpoint chunk φ)} {v : Device size σ φ}
    (h : run.Meets (Resumes fun _ => True) (Idling p)
      (fun _ x w => w.HoldsPixels p ∧ x.2.cursor = p.length) v)
    (horderly : (Scene.settle r e run).2.Orderly) (hroom : p.length < size) :
    (Scene.settle r e run).2.Draws p where
  orderly := horderly
  idle := by
    obtain ⟨_, _, -, -, hidle⟩ | ⟨_, _, -, -, hpixels, -⟩ := settle_cases
      (T := fun _ _ => Idling p) (Q := fun _ _ _ x w => w.HoldsPixels p ∧ x.2.cursor = p.length) h
    · exact hidle
    · exact hpixels.idle
  room := hroom
  sound := sound_settle (T := fun _ _ => Idling p)
    (Q := fun _ _ _ x w => w.HoldsPixels p ∧ x.2.cursor = p.length) h fun _ _ _ _ hx => hx

variable [Backed σ φ δ]

theorem Draws.act (h : s.Draws p) {a : Action σ ε} (ha : a.OfHost) :
    (s.act a).2.Draws (s.drawn p a) := by
  have horderly := h.orderly.act a
  cases a with
  | aside x =>
    refine ⟨horderly, fun hp => ?_, h.room,
      sound_aside h.sound trivial fun e d hd => ⟨hd.1.aside x, hd.2⟩⟩
    exact h.idle ((aside_playing h.orderly.coherent x).symm.trans hp)
  | request r =>
    unfold drawn
    cases hs : s.hand with
    | busy r' e pause k =>
      rw [act_request_busy hs]
      exact h
    | free e =>
      obtain ⟨hpixels, hcursor⟩ := h.sound.ready hs
      rw [act_request hs] at horderly ⊢
      exact .settle (Request.routine_holdingPixels ha hpixels hcursor h.room) horderly
        (Request.length_pixels h.room r)
  | resume =>
    show (s.act .resume).2.Draws p
    cases hs : s.hand with
    | free e =>
      rw [act_resume_free hs]
      exact h
    | busy r e pause k =>
      rcases harrived : s.device.arrived pause with ⟨_ | _, d⟩
      · have hlook := sound_look h.sound hs (congrArg Prod.fst harrived)
        rw [harrived] at hlook
        rw [act_look hs harrived] at horderly ⊢
        refine ⟨horderly, fun hp => h.idle ?_, h.room, hlook⟩
        have hd : d = (s.device.arrived pause).2 := by rw [harrived]
        obtain ⟨b, hrest⟩ := s.device.arrived_rest pause
        rw [hd, hrest] at hp
        exact hp
      · rw [act_resume hs harrived] at horderly ⊢
        exact .settle (h.sound.resumed hs (.ended harrived)) horderly h.room

theorem Draws.after (h : s.Draws p) {as : List (Action σ ε)} (has : ∀ a ∈ as, a.OfHost) :
    (s.after as).Draws (s.pixels p as) := by
  induction as generalizing s p with
  | nil => exact h
  | cons a as ih =>
    exact ih (h.act (has a List.mem_cons_self)) fun b hb => has b (List.mem_cons_of_mem a hb)

/-- The raw pixels `p` wait, short of a frame, and none while an animation plays. Between two
commands the next ones go behind them, and a packet of raw pixels is answered as it should be. -/
structure Streams (p : Bytes) (s : Scene size chunk σ φ ε) : Prop where
  idle : s.device.playback.playing = true → p = []
  room : p.length < size
  cursor {e : Endpoint chunk φ} : s.hand = .free e → e.cursor = p.length
  answered {e : Endpoint chunk φ} {transport : Transport ε} {bytes : Bytes} {f : Nat → Action σ ε} :
    s.hand = .free e → Fair f →
    ∃ n answer, .answered answer ∈
      s.events (.request (.frame transport bytes) :: (List.range n).map f)
  paints {e : Endpoint chunk φ} {transport : Transport ε} {bytes : Bytes} {q : Packet}
    {bs : List (Action σ ε)} {qs : List (Event ε)} {x : Answer ε × Endpoint chunk φ}
    {w : Device size σ φ} :
    s.hand = .free e → Packet.decode bytes = .ok q → q.command = .writeDisplay → q.payload ≠ [] →
    (∀ b ∈ bs, b.Waits fun _ => True) →
    s.AnswersLast (.request (.frame transport bytes) :: bs) qs x w →
    ∃ status, s.device.Paints p q.payload status w ∧ ((∀ n, transport.refuse n = none) →
      x.1 = .served (.ok status) [.ofStatus status])

/-- Raw pixels make frames exactly. Whatever the host asks for and whatever happens, the panel gets
one frame whenever the raw pixels since the last frame, image, animation or format fill one: these
pixels, as many as there is room for. -/
theorem raw_pixels_exact (hsize : 0 < size) (config : Config) (timing : Timing) (store : σ)
    (as : List (Action σ ε)) (has : ∀ a ∈ as, a.OfHost) :
    let first : Scene size chunk σ φ ε := initial config timing store
    (first.after as).Streams (first.pixels [] as) := by
  intro first
  have hdraws : (first.after as).Draws (first.pixels [] as) :=
    (Draws.initial hsize config timing store).after has
  constructor
  case idle => exact hdraws.idle
  case room => exact hdraws.room
  case cursor =>
    intro e hfree
    exact (hdraws.sound.ready hfree).2
  case answered =>
    intro e transport bytes f hfree hf
    exact answered_request hfree
      (Request.frame_passing hdraws.orderly.coherent (unheld hfree) transport bytes) hf
  case paints =>
    intro e transport bytes q bs qs x w hfree hdecode hc hne hbs hlast
    obtain ⟨hpixels, hcursor⟩ := hdraws.sound.ready hfree
    exact Request.frame_paints hpixels hcursor hdraws.room hdecode hc hne
      (hlast.requested hfree hbs)

/-- Four pixels in two pieces, for frames of three; the first piece ends an animation. -/
theorem fourth_pixel_dropped :
    let name : Bytes := [97, 46, 97, 114, 97, 119]
    let volume := (Volume.fresh 1 16).put [name] (.file [7, 8, 9])
    let first : Scene 3 1 Volume FileHandle Unit := initial {} ⟨1, 1⟩ volume
    let send (command : Command) (payload : Bytes) : Action Volume Unit :=
      .request (.frame .instant (Packet.frame ⟨command, 0, payload⟩))
    let as := [send .chooseImage name, .aside .poll, .aside .tick, send .writeDisplay [1, 2],
      .aside .poll, .resume]
    0 < 3 ∧ (∀ a ∈ as, a.OfHost) ∧ first.pixels [] as = [1, 2] ∧
    first.events (as ++ [send .writeDisplay [3, 4]]) =
      [.answered (.served (.ok .success) [.ofStatus .success]), .quiet, .ticked (.presented 0),
        .quiet, .quiet, .answered (.served (.ok .success) [.ofStatus .success]),
        .answered (.served (.ok .widthOutOfBounds) [.ofStatus .widthOutOfBounds])] ∧
    (first.after (as ++ [send .writeDisplay [3, 4]])).device.display.frames =
      [[7, 8, 9], [1, 2, 3]] ∧
    (first.after as).Streams [1, 2] := by
  intro name volume first send as
  have hhost : ∀ a ∈ as, a.OfHost := by
    intro a ha
    simp only [as, List.mem_cons, List.not_mem_nil, or_false] at ha
    obtain rfl | rfl | rfl | rfl | rfl | rfl := ha <;> trivial
  refine ⟨by decide, hhost, by decide +kernel, by decide +kernel, by decide +kernel, ?_⟩
  exact raw_pixels_exact (by decide) {} ⟨1, 1⟩ volume as hhost

end Scene

end PanelLink
