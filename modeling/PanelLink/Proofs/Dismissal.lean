import PanelLink.Proofs.Answering
import PanelLink.Proofs.Holding

/-!
A stop does not wait for ever. Told to leave, the loader goes at its next poll, or at the one after
that if it has a job in hand; its signal stays until the stop has seen it.
-/
namespace PanelLink

open Device Handler

variable {size chunk : Nat} {σ φ δ ε : Type}

/-- How many polls it takes the loader to leave once nothing plays. A queued job is tried first. -/
def Loader.farewell : Loader → Nat
  | asleep | resting => 1
  | queued _ => 2

theorem Loader.farewell_pos (l : Loader) : 1 ≤ l.farewell := by
  cases l <;> simp [farewell]

theorem Loader.farewell_le_two (l : Loader) : l.farewell ≤ 2 := by
  cases l <;> simp [farewell]

def polls : List (Action σ ε) → Nat
  | [] => 0
  | .aside .poll :: as => polls as + 1
  | _ :: as => polls as

variable [FileStore σ φ δ]

namespace Device

/-! ## The loader leaves -/

/-- A stop is under way with the store free. The loader leaves within `n` polls, or has left and its
signal has not been taken yet. -/
structure Leaving (n : Nat) (d : Device size σ φ) : Prop where
  coherent : d.Coherent
  still : d.playback.playing = false
  unheld : d.held = false
  near : d.playback.loaderActive = true → d.loader.farewell ≤ n
  heard : d.playback.loaderActive = false → d.leftSignal = true

/-- A poll brings the loader out of its session, or closer to the end of it. -/
theorem poll_leaves {d : Device size σ φ} (hc : d.Coherent) (hp : d.playback.playing = false)
    (hh : d.held = false) (ha : d.playback.loaderActive = true) :
    (d.pollLoader.playback.loaderActive = false ∧ d.pollLoader.leftSignal = true) ∨
    (d.pollLoader.playback.loaderActive = true ∧
      d.pollLoader.loader.farewell < d.loader.farewell) := by
  have hserve (w : Device size σ φ) (hw : w.playback = d.playback) : w.serve = w.leave := by
    rw [serve_eq w (by rw [hw]; exact hc.underWay), hw, hp]
    rfl
  unfold pollLoader
  split
  · rename_i hl
    have htold : d.startSignal = true := (hc.engaged.mp ha).resolve_right fun h => h hl
    rw [if_pos htold]
    have hleave : ({ d with startSignal := false } : Device size σ φ).serve = d.leave :=
      hserve d.awake rfl
    rw [hleave]
    exact .inl ⟨rfl, rfl⟩
  · rw [hserve d rfl]
    exact .inl ⟨rfl, rfl⟩
  · rename_i job hl
    have hkept := perform_playback hp job
    rw [if_neg (Bool.eq_false_iff.mp hh), hl]
    rcases hw : d.perform job with ⟨_ | _, w⟩
    · rw [hw] at hkept
      refine .inr ⟨(congrArg Playback.loaderActive hkept).trans ha, ?_⟩
      exact Nat.lt_succ_self 1
    · rw [hw] at hkept
      dsimp only at hkept ⊢
      rw [hserve w hkept]
      exact .inl ⟨rfl, rfl⟩

namespace Leaving

variable {n : Nat} {d : Device size σ φ}

theorem poll (h : Leaving n d) : Leaving (n - 1) d.pollLoader := by
  have hstill : d.pollLoader.playback.playing = false := by
    obtain hp | ⟨hp, -⟩ | ⟨-, hp⟩ := poll_playback h.coherent
    · rw [hp, h.still]
    · rw [h.still] at hp
      cases hp
    · rw [hp]
      exact h.still
  have hunheld : d.pollLoader.held = false := (d.aside_held .poll).trans h.unheld
  by_cases ha : d.playback.loaderActive = true
  · have hnear := h.near ha
    obtain ⟨hgone, hsaid⟩ | ⟨hactive, hless⟩ := poll_leaves h.coherent h.still h.unheld ha
    · exact ⟨h.coherent.poll, hstill, hunheld, by simp [hgone], fun _ => hsaid⟩
    · exact ⟨h.coherent.poll, hstill, hunheld, fun _ => by omega, by simp [hactive]⟩
  · have hgone : d.playback.loaderActive = false := Bool.eq_false_iff.mpr ha
    obtain ⟨hl, hu⟩ := h.coherent.asleep_of_not_active hgone
    have hsame : d.pollLoader = d := by
      unfold pollLoader
      simp [hl, hu]
    rw [hsame]
    exact ⟨h.coherent, h.still, h.unheld, fun hactive => absurd hactive ha, h.heard⟩

/-- What goes on besides the polls does not bring the loader back. -/
theorem beside (h : Leaving n d) {a : Aside σ} (ha : a ≠ .poll) : Leaving n (a.apply d).2 := by
  have hc := h.coherent.aside a
  have htick : d.tick.2 = d := by
    unfold tick
    simp [h.still]
  cases a with
  | poll => exact absurd rfl ha
  | tick =>
    have hsame : ((Aside.tick : Aside σ).apply d).2 = d := htick
    rwa [hsame]
  | timer =>
    have hdelay : ((Aside.timer : Aside σ).apply d).2 =
        { d with timerRunning := true }.delay d.timing.frame := by
      show d.pollTimer = _
      unfold pollTimer
      rw [htick, ite_self]
    rw [hdelay] at hc ⊢
    exact ⟨hc, h.still, h.unheld, h.near, h.heard⟩
  | alter change => exact ⟨hc, h.still, h.unheld, h.near, h.heard⟩
  | setFault fault => exact ⟨hc, h.still, h.unheld, h.near, h.heard⟩

theorem look (h : Leaving n d) :
    (d.arrived .acknowledgement).1 = true ∨ d.arrived .acknowledgement = (false, d) := by
  show d.takeLeft.1 = true ∨ d.takeLeft = (false, d)
  unfold takeLeft
  cases hl : d.leftSignal with
  | false => exact .inr rfl
  | true =>
    have hgone : d.playback.loaderActive = false := h.coherent.left hl
    refine .inl ?_
    rw [if_pos rfl, hgone]
    rfl

theorem arrives (h : Leaving 0 d) : (d.arrived .acknowledgement).1 = true := by
  have hgone : d.playback.loaderActive = false := by
    refine Bool.eq_false_iff.mpr fun ha => ?_
    have hnear := h.near ha
    have hpos := d.loader.farewell_pos
    omega
  show d.takeLeft.1 = true
  unfold takeLeft
  rw [if_pos (h.heard hgone), hgone]
  rfl

end Leaving

/-- From the request of a stop on the loader is at most two polls away from leaving. -/
theorem Coherent.leaving {d : Device size σ φ} (hc : d.Coherent) (hh : d.held = false)
    (ha : d.playback.loaderActive = true) : Leaving 2 d.requestStop.2 where
  coherent := hc.halt
  still := rfl
  unheld := hh
  near _ := d.loader.farewell_le_two
  heard h := by
    have hactive : d.requestStop.2.playback.loaderActive = true := ha
    rw [hactive] at h
    cases h

end Device

/-! ## Commands that wait for the loader alone -/

namespace Run

variable {ω α β : Type} {P : ω → Prop} {Q : α → Prop} {Q' : β → Prop}

def Ends (Q : α → Prop) (r : Run ω α) : Prop :=
  ∃ a w, r = done a w ∧ Q a

/-- The run ends, or it waits once for the loader, where `P` holds, and then ends. -/
def Dismisses (P : ω → Prop) (Q : α → Prop) : Run ω α → Prop
  | done a _ => Q a
  | paused p w k => p = .acknowledgement ∧ P w ∧ ∀ w', (k w').Ends Q

theorem Ends.dismisses {r : Run ω α} (h : r.Ends Q) : r.Dismisses P Q := by
  obtain ⟨a, w, rfl, ha⟩ := h
  exact ha

theorem Ends.bind {r : Run ω α} {f : α → ω → Run ω β} (h : r.Ends Q)
    (hf : ∀ a w, Q a → (f a w).Ends Q') : (r.bind f).Ends Q' := by
  obtain ⟨a, w, rfl, ha⟩ := h
  exact hf a w ha

theorem Dismisses.bind {r : Run ω α} {f : α → ω → Run ω β} (h : r.Dismisses P Q)
    (hf : ∀ a w, Q a → (f a w).Ends Q') : (r.bind f).Dismisses P Q' := by
  cases r with
  | done a w => exact (hf a w h).dismisses
  | paused p w k =>
    obtain ⟨hp, hw, hk⟩ := h
    exact ⟨hp, hw, fun w' => (hk w').bind hf⟩

end Run

/-- The handler ends without a pause and sends nothing. -/
def Handler.Mute {α : Type} (h : Handler size chunk σ φ ε α) : Prop :=
  ∀ s d, (on h s d).Ends fun x => x.2.outbox = s.outbox

namespace Handler.Mute

variable {α β γ : Type} {h : Handler size chunk σ φ ε α}

protected theorem bind {f : α → Handler size chunk σ φ ε β} (hh : Mute h)
    (hf : ∀ a, Mute (f a)) : Mute (h >>= f) := by
  intro s d
  rw [on_bind]
  refine (hh s d).bind fun x w hx => ?_
  obtain ⟨_ | a, s'⟩ := x
  · exact ⟨_, _, rfl, hx⟩
  · obtain ⟨y, w', hrun, hy⟩ := hf a s' w
    exact ⟨y, w', hrun, hy.trans hx⟩

protected theorem pure {a : α} : Mute (pure a : Handler size chunk σ φ ε α) :=
  fun _ _ => ⟨_, _, rfl, rfl⟩

theorem endpoint : Mute (Handler.endpoint : Handler size chunk σ φ ε _) :=
  fun _ _ => ⟨_, _, rfl, rfl⟩

theorem modify (f : Endpoint chunk φ → Endpoint chunk φ) :
    Mute (modifyEndpoint f : Handler size chunk σ φ ε Unit) :=
  fun _ _ => ⟨_, _, rfl, rfl⟩

theorem onDevice (f : Device size σ φ → α × Device size σ φ) :
    Mute (always (Conduct.onDevice f) : Handler size chunk σ φ ε α) :=
  fun _ _ => ⟨_, _, rfl, rfl⟩

theorem settle (cause : γ → CommandError) (r : Except γ α) :
    Mute (ofExcept cause r : Handler size chunk σ φ ε α) := by
  intro s d
  rw [on_ofExcept]
  exact ⟨_, _, rfl, rfl⟩

theorem call (f : σ → Except StorageError α × σ) :
    Mute (callStore f : Handler size chunk σ φ ε α) := by
  intro s d
  rw [on_callStore]
  exact ⟨_, _, rfl, rfl⟩

theorem wipe : Mute (Handler.wipe : Handler size chunk σ φ ε Reply) := by
  have habandon : Mute (abandonUpload : Handler size chunk σ φ ε Unit) := by
    intro s d
    rw [on_abandonUpload]
    split <;> exact ⟨_, _, rfl, rfl⟩
  exact habandon.bind fun _ => (modify _).bind fun _ => (call _).bind fun _ =>
    (call _).bind fun _ => .pure

theorem paint (payload : Bytes) :
    Mute (Handler.paint payload : Handler size chunk σ φ ε Reply) :=
  endpoint.bind fun _ => (onDevice _).bind fun _ => (modify _).bind fun _ =>
    (settle _ _).bind fun _ => .pure

end Handler.Mute

section

variable {d : Device size σ φ} {s : Serving chunk φ ε}

theorem stop_dismisses (hc : d.Coherent) (hh : d.held = false) :
    (Device.stop d).Dismisses (Leaving 2) (· = d.playback.playing) := by
  by_cases ha : d.playback.loaderActive = true
  · rw [hc.stop_eq ha]
    exact ⟨rfl, hc.leaving hh ha, fun w => ⟨_, _, rfl, rfl⟩⟩
  · rw [Device.stop_eq, if_neg ha]
    exact Eq.refl d.playback.playing

theorem start_dismisses (hc : d.Coherent) (hh : d.held = false) (path : Bytes) :
    (Device.start path d).Dismisses (Leaving 2) fun _ => True :=
  (stop_dismisses hc hh).bind fun _ _ _ => ⟨_, _, rfl, trivial⟩

theorem showStill_dismisses (hc : d.Coherent) (hh : d.held = false) (path : Bytes) :
    (Device.showStill path d).Dismisses (Leaving 2) fun _ => True :=
  (stop_dismisses hc hh).bind fun _ _ _ => ⟨_, _, rfl, trivial⟩

theorem format_dismisses (hc : d.Coherent) (hh : d.held = false) :
    (Handler.on Handler.format s d).Dismisses (Leaving 2) fun x => x.2.outbox = s.outbox := by
  rw [on_format]
  exact (stop_dismisses hc hh).bind fun _ w _ => Mute.wipe s w

theorem chooseImage_dismisses (hc : d.Coherent) (hh : d.held = false) (payload : Bytes) :
    (Handler.on (Handler.chooseImage payload) s d).Dismisses (Leaving 2)
      fun x => x.2.outbox = s.outbox := by
  rw [on_chooseImage]
  split
  · exact Eq.refl s.outbox
  split
  · exact (start_dismisses hc hh _).bind fun _ _ _ => ⟨_, _, rfl, rfl⟩
  · exact (showStill_dismisses hc hh _).bind fun _ _ _ => ⟨_, _, rfl, rfl⟩

theorem writeDisplay_dismisses (hc : d.Coherent) (hh : d.held = false) (payload : Bytes) :
    (Handler.on (Handler.writeDisplay payload) s d).Dismisses (Leaving 2)
      fun x => x.2.outbox = s.outbox := by
  rw [on_writeDisplay]
  split
  · exact Eq.refl s.outbox
  split
  · exact (stop_dismisses hc hh).bind fun _ w _ => Mute.paint payload s w
  · exact (Mute.paint payload s d).dismisses

/-- A quick transport takes the last reply, or refuses it, without a pause. -/
theorem conclude_ends (hs : s.outbox.transport.slow = false) (result : Except CommandError Reply) :
    (Conduct.on (Conduct.conclude result) s d).Ends fun _ => True := by
  rw [Conduct.on_conclude]
  split
  · exact ⟨_, _, rfl, trivial⟩
  · rw [Conduct.on_finish, Conduct.on_post, hs, Bool.and_false, if_neg Bool.false_ne_true]
    exact ⟨_, _, rfl, trivial⟩

end

/-- A request that waits for nothing but the loader: a stop, a direct request for the screen, or a
frame for it over a quick transport. -/
def Request.Screens : Request ε → Prop
  | .frame transport bytes => transport.slow = false ∧ ∃ p, Packet.decode bytes = .ok p ∧
      (p.command = .chooseImage ∨ p.command = .writeDisplay ∨ p.command = .format)
  | .stop | .start _ | .showStill _ => True
  | .loadConfig => False

theorem Request.Screens.dismisses {r : Request ε} (hr : r.Screens) (e : Endpoint chunk φ)
    {d : Device size σ φ} (hc : d.Coherent) (hh : d.held = false) :
    (r.routine e d).Dismisses (Leaving 2) fun _ => True := by
  cases r with
  | frame transport bytes =>
    obtain ⟨hslow, p, hp, hcommand⟩ := hr
    have hexecute : (Handler.on (Handler.execute p) ⟨e, .empty transport⟩ d).Dismisses (Leaving 2)
        fun x => x.2.outbox = .empty transport := by
      unfold Handler.execute
      obtain h | h | h := hcommand
      · rw [h]
        exact chooseImage_dismisses hc hh _
      · rw [h]
        exact writeDisplay_dismisses hc hh _
      · rw [h]
        exact format_dismisses hc hh
    rw [routine_frame, Conduct.on_serve _ _ hp, Run.bind_bind]
    refine hexecute.bind fun x w hx => ?_
    have hquick : x.2.outbox.transport.slow = false := by
      rw [hx]
      exact hslow
    exact (conclude_ends hquick x.1).bind fun _ _ _ => ⟨_, _, rfl, trivial⟩
  | stop => exact (stop_dismisses hc hh).bind fun _ _ _ => ⟨_, _, rfl, trivial⟩
  | start path => exact (start_dismisses hc hh path).bind fun _ _ _ => ⟨_, _, rfl, trivial⟩
  | showStill path => exact (showStill_dismisses hc hh path).bind fun _ _ _ => ⟨_, _, rfl, trivial⟩
  | loadConfig => exact hr.elim

namespace Scene

section

variable {s : Scene size chunk σ φ ε} {Q : Answer ε × Endpoint chunk φ → Prop} {r : Request ε}
  {e : Endpoint chunk φ} {n : Nat}
  {resume : Device size σ φ → Run (Device size σ φ) (Answer ε × Endpoint chunk φ)}

/-- A command whose pause is over answers when it is looked after. -/
theorem answers_arrived (hhand : s.hand = .busy r e .acknowledgement resume)
    (hresume : ∀ d, (resume d).Ends Q) (harrived : (s.device.arrived .acknowledgement).1 = true)
    (as : List (Action σ ε)) : ∃ x, Q x ∧ .answered x.1 ∈ s.events (.resume :: as) := by
  obtain ⟨x, w, hrun, hx⟩ := hresume (s.device.arrived .acknowledgement).2
  have hact : s.act .resume = settle r e (.done x w) := by
    rw [act_resume hhand (Prod.ext harrived rfl), hrun]
  refine ⟨x, hx, ?_⟩
  show _ ∈ (s.act .resume).1 :: _
  rw [hact]
  exact List.mem_cons_self

/-- A stop that waits for a loader so many polls from leaving answers when it is looked after, once
the loader was polled as often. -/
theorem answers_leaving (hhand : s.hand = .busy r e .acknowledgement resume)
    (hresume : ∀ d, (resume d).Ends Q) (hd : Leaving n s.device) {as : List (Action σ ε)}
    (has : ∀ a ∈ as, a.Waits fun _ => True) (hpolls : n ≤ polls as) :
    ∃ x, Q x ∧ .answered x.1 ∈ s.events (as ++ [.resume]) := by
  induction as generalizing s n with
  | nil =>
    obtain rfl : n = 0 := Nat.le_zero.mp hpolls
    exact answers_arrived hhand hresume hd.arrives []
  | cons a as ih =>
    have hrest (b) (hb : b ∈ as) : b.Waits fun _ => True := has b (List.mem_cons_of_mem a hb)
    have hlater {m : Nat} (hd : Leaving m (s.act a).2.device)
        (hkept : (s.act a).2.hand = s.hand) (hpolls : m ≤ polls as) :
        ∃ x, Q x ∧ .answered x.1 ∈ s.events (a :: as ++ [.resume]) := by
      obtain ⟨x, hx, hmem⟩ := ih (hkept.trans hhand) hd hrest hpolls
      exact ⟨x, hx, List.mem_cons_of_mem _ hmem⟩
    cases a with
    | request r' => exact (has _ List.mem_cons_self).elim
    | aside x =>
      cases x with
      | poll => exact hlater hd.poll rfl (Nat.sub_le_of_le_add hpolls)
      | tick => exact hlater (hd.beside (a := .tick) nofun) rfl hpolls
      | timer => exact hlater (hd.beside (a := .timer) nofun) rfl hpolls
      | alter change => exact hlater (hd.beside (a := .alter change) nofun) rfl hpolls
      | setFault fault => exact hlater (hd.beside (a := .setFault fault) nofun) rfl hpolls
    | resume =>
      obtain harrived | hsame := hd.look
      · exact answers_arrived hhand hresume harrived (as ++ [.resume])
      · have hact : (s.act .resume).2 = s := by rw [act_look hhand hsame]
        refine hlater ?_ (congrArg hand hact) hpolls
        rwa [hact]

/-- A request that waits for the loader alone is answered after two polls. -/
theorem answers_dismissal (hhand : s.hand = .free e)
    (hrun : (r.routine e s.device).Dismisses (Leaving 2) Q) {as : List (Action σ ε)}
    (has : ∀ a ∈ as, a.Waits fun _ => True) (hpolls : 2 ≤ polls as) :
    ∃ x, Q x ∧ .answered x.1 ∈ s.events (.request r :: as ++ [.resume]) := by
  show ∃ x, Q x ∧ .answered x.1 ∈ (s.act (.request r)).1 :: (s.act (.request r)).2.events _
  rw [act_request hhand]
  cases hr : r.routine e s.device with
  | done x w =>
    rw [hr] at hrun
    exact ⟨x, hrun, List.mem_cons_self⟩
  | paused p w k =>
    rw [hr] at hrun
    obtain ⟨rfl, hd, hk⟩ := hrun
    obtain ⟨x, hx, hmem⟩ :=
      answers_leaving (s := (settle r e (.paused .acknowledgement w k)).2) rfl hk hd has hpolls
    exact ⟨x, hx, List.mem_cons_of_mem _ hmem⟩

end

/-- The stop handshake does not hang. In any scene in which nobody holds the store a stop is
answered once the loader was polled twice, whatever else goes on meanwhile. Between two commands
nobody does hold it; so every image, every raw write and every format over a quick transport is
answered after two polls as well, and so is a stop. -/
theorem stop_ends_within_two_polls (config : Config) (timing : Timing) (store : σ)
    (as bs : List (Action σ ε)) (hbs : ∀ a ∈ bs, a.Waits fun _ => True) (hpolls : 2 ≤ polls bs) :
    let s : Scene size chunk σ φ ε := (initial config timing store).after as
    (∀ e, s.device.held = false →
      .answered (.stopped s.device.playback.playing) ∈
        (⟨s.device, .free e⟩ : Scene size chunk σ φ ε).events (.request .stop :: bs ++ [.resume])) ∧
    ∀ e r, s.hand = .free e → r.Screens →
      ∃ answer, .answered answer ∈ s.events (.request r :: bs ++ [.resume]) := by
  intro s
  have hc : s.device.Coherent := ((Orderly.initial config timing store).after as).coherent
  constructor
  · intro e hheld
    have hstop : ((.stop : Request ε).routine e s.device).Dismisses (Leaving 2)
        fun x => x.1 = .stopped s.device.playback.playing := by
      refine (stop_dismisses hc hheld).bind fun b w hb => ?_
      exact ⟨_, _, rfl, congrArg Answer.stopped hb⟩
    obtain ⟨x, hx, hmem⟩ := answers_dismissal (s := ⟨s.device, .free e⟩) rfl hstop hbs hpolls
    rwa [← hx]
  · intro e r hfree hr
    have hheld : s.device.held = false := unheld hfree
    obtain ⟨x, -, hmem⟩ := answers_dismissal hfree (hr.dismisses e hc hheld) hbs hpolls
    exact ⟨x.1, hmem⟩

/-- A loader that waits for the store with a frame in hand, which it then cannot read, takes both
polls. -/
theorem queued_loader_leaves :
    let volume := (Volume.fresh 1 8).put [[97]] (.file [7, 8])
    let cat : Request Unit :=
      .frame ⟨fun _ => none, true⟩ (Packet.frame ⟨.cat, 0, [97]⟩)
    let as : List (Action Volume Unit) :=
      [.request (.start [97]), .request cat, .aside .poll, .resume, .resume, .resume,
        .aside (.alter fun v => { v with readFault := some [[97]] })]
    let bs : List (Action Volume Unit) := [.aside .poll, .resume, .aside .poll]
    let s : Scene 1 1 Volume FileHandle Unit := (initial {} ⟨1, 1⟩ volume).after as
    s.device.loader = .queued ⟨0, .second, 1⟩ ∧ s.device.held = false ∧ 2 ≤ polls bs ∧
      .answered (.stopped true) ∈ s.events (.request .stop :: bs ++ [.resume]) := by
  intro volume cat as bs s
  have hbs : ∀ a ∈ bs, a.Waits fun _ => True := by
    intro a ha
    simp only [bs, List.mem_cons, List.not_mem_nil, or_false] at ha
    obtain rfl | rfl | rfl := ha <;> trivial
  have hloader : s.device.loader = .queued ⟨0, .second, 1⟩ := by decide +kernel
  have hheld : s.device.held = false := by decide +kernel
  have hplaying : s.device.playback.playing = true := by decide +kernel
  have hpolls : 2 ≤ polls bs := by decide
  let e : Endpoint 1 FileHandle := .initial {}
  have hfree : s.hand = .free e := hand_of_endpoint? (by decide +kernel)
  have hscene : s = ⟨s.device, .free e⟩ := by rw [← hfree]
  obtain ⟨hstop, -⟩ := stop_ends_within_two_polls {} ⟨1, 1⟩ volume as bs hbs hpolls
  have hanswer := hstop e hheld
  rw [hplaying, ← hscene] at hanswer
  exact ⟨hloader, hheld, hpolls, hanswer⟩

end Scene

end PanelLink
