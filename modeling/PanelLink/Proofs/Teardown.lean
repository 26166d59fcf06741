import PanelLink.Proofs.Orderly

/-!
The end of an animation is complete: when a stop returns nothing of it is left, and nothing comes
back until the next one starts.
-/
namespace PanelLink

open Device Handler

variable {size chunk : Nat} {σ φ δ ε : Type}

/-- Whether the request stops an animation that plays. -/
def Request.stops (e : Endpoint chunk φ) (d : Device size σ φ) : Request ε → Bool
  | .stop | .start _ | .showStill _ => true
  | .frame _ bytes =>
    match Packet.decode bytes with
    | .ok ⟨.format, _, _⟩ => true
    | .ok ⟨.chooseImage, _, payload⟩ => (e.pathOf payload).toOption.isSome
    | .ok ⟨.writeDisplay, _, payload⟩ => payload ≠ [] && d.playback.playing
    | _ => false
  | .loadConfig => false

variable [FileStore σ φ δ]

/-- What stops an animation does so first of all. -/
theorem Request.stops_first {e : Endpoint chunk φ} {d : Device size σ φ} {r : Request ε}
    (h : r.stops e d = true) : ∃ k, r.routine e d = (Device.stop d).bind k := by
  cases r with
  | stop => exact ⟨_, routine_stop e d⟩
  | start path =>
    rw [routine_start]
    exact ⟨_, Run.bind_bind _ _ _⟩
  | showStill path =>
    rw [routine_showStill]
    exact ⟨_, Run.bind_bind _ _ _⟩
  | loadConfig => simp [stops] at h
  | frame transport bytes =>
    suffices hfirst : ∀ p, Packet.decode bytes = .ok p →
        ∃ k, Handler.on (execute p) ⟨e, .empty transport⟩ d = (Device.stop d).bind k by
      rw [routine_frame]
      cases hd : Packet.decode bytes with
      | error x => simp [stops, hd] at h
      | ok p =>
        obtain ⟨k, hk⟩ := hfirst p hd
        rw [Conduct.on_serve _ _ hd, hk, Run.bind_bind, Run.bind_bind]
        exact ⟨_, rfl⟩
    rintro ⟨command, id, payload⟩ hd
    simp only [stops, hd] at h
    unfold execute
    cases command with
    | format => exact ⟨_, on_format _ d⟩
    | chooseImage =>
      rw [on_chooseImage]
      cases hp : e.pathOf payload with
      | error x => simp [hp, Except.toOption] at h
      | ok path =>
        dsimp only
        split
        · exact ⟨_, Run.bind_bind _ _ _⟩
        · exact ⟨_, Run.bind_bind _ _ _⟩
    | writeDisplay =>
      simp only [Bool.and_eq_true, decide_eq_true_eq] at h
      rw [on_writeDisplay, if_neg h.1, if_pos h.2]
      exact ⟨_, rfl⟩
    | _ => simp at h

namespace Scene

/-- The stop returns: the request finds no session to wait for, or its wait is over. -/
def StopReturns (s : Scene size chunk σ φ ε) : Action σ ε → Prop
  | .request r =>
    ∃ e, s.hand = .free e ∧ r.stops e s.device = true ∧ s.device.playback.loaderActive = false
  | .resume =>
    (∃ r e k, s.hand = .busy r e .acknowledgement k) ∧
      (s.device.arrived .acknowledgement).1 = true
  | .aside _ => False

theorem tornDown_aside {d : Device size σ φ} (h : d.TornDown) (a : Aside σ) :
    (a.apply d).2.TornDown := by
  cases a with
  | poll =>
    show d.pollLoader.TornDown
    rwa [h.poll]
  | tick =>
    show d.tick.2.TornDown
    rwa [h.tick]
  | timer =>
    show d.pollTimer.TornDown
    unfold pollTimer
    rw [h.tick, ite_self]
    exact h.congr rfl rfl rfl rfl
  | alter change => exact h.congr rfl rfl rfl rfl
  | setFault fault => exact h.congr rfl rfl rfl rfl

/-- Where no session is left, what a stretch of a command leaves is torn down unless it began an
animation. -/
theorem Orderly.tornDown_advance {s : Scene size chunk σ φ ε} (hs : s.Orderly) {a r e d run}
    (h : s.Advances a r e d run) (ha : d.playback.loaderActive = false)
    (hp : d.playback.playing = false) (hn : s.launched? a = none) :
    (s.act a).2.device.TornDown := by
  have hstill : (s.act a).2.device.playback.playing = false := by
    cases hs.shift h with
    | quiet h₁ _ _ _ => rw [h₁, ← h.device_eq.1, hp]
    | idle h₁ _ _ => exact h₁
    | launch _ h₂ _ _ _ => simp [launched?_eq_some h₂] at hn
  have hc := (hs.act a).coherent
  have hsettled : (s.act a).2.device.Settled := by
    rw [h.act_eq]
    obtain ⟨p, k, -, -, hT⟩ | ⟨x, e', -, -, hQ⟩ := settle_cases (hs.meets h)
    · cases p with
      | delivery => exact hT.settled rfl
      | acknowledgement => simp [(hT.halted rfl).2] at ha
    · exact hQ.atEnd.settled
  exact hc.tornDown hsettled hstill

private theorem Orderly.tornDown_act {s : Scene size chunk σ φ ε} (hs : s.Orderly) {a : Action σ ε}
    (h : s.device.TornDown) (hn : s.launched? a = none) : (s.act a).2.device.TornDown := by
  obtain ⟨x, rfl⟩ | ⟨r, e, d, run, ha⟩ | ⟨-, ha | ⟨r, e, p, k, -, -, ha⟩⟩ := s.act_cases a
  · exact tornDown_aside h x
  · have hp := ha.device_eq.1
    exact hs.tornDown_advance ha (by rw [hp, h.gone]) (by rw [hp, h.still]) hn
  · rwa [ha]
  · rw [ha]
    exact h.look p

theorem Orderly.tornDown_after {s : Scene size chunk σ φ ε} (hs : s.Orderly)
    (h : s.device.TornDown) {as : List (Action σ ε)} (hn : s.launches as = 0) :
    (s.after as).device.TornDown := by
  induction as generalizing s with
  | nil => exact h
  | cons a as ih =>
    have hsum : (s.launched? a).isSome.toNat + (s.act a).2.launches as = 0 := hn
    obtain ⟨ha, has⟩ := Nat.add_eq_zero_iff.mp hsum
    have hnone : s.launched? a = none := by
      cases hl : s.launched? a with
      | none => rfl
      | some n => simp [hl] at ha
    exact ih (hs.act a) (hs.tornDown_act h hnone) has

/-- The return of a stop leaves nothing, unless an animation begins with the same action. -/
theorem Orderly.tornDown_return {s : Scene size chunk σ φ ε} (hs : s.Orderly) {a : Action σ ε}
    (h : s.StopReturns a) (hn : s.launched? a = none) : (s.act a).2.device.TornDown := by
  cases a with
  | aside x => exact h.elim
  | request r =>
    obtain ⟨e, he, -, ha⟩ := h
    exact hs.tornDown_advance (.request he) ha ((hs.free he).1.trans ha) hn
  | resume =>
    obtain ⟨⟨r, e, k, hk⟩, ha⟩ := h
    have harr : s.device.arrived .acknowledgement =
      (true, (s.device.arrived .acknowledgement).2) := Prod.ext ha rfl
    have hended : Resumes (fun _ => True) .acknowledgement s.device _ := .ended harr
    refine hs.tornDown_advance (.resume hk harr) hended.gone ?_ hn
    rw [(Advances.resume hk harr).device_eq.1]
    exact hs.halted r e k hk

/-- A start that was asked for succeeds when an animation begins, and says how many frames it
has. -/
theorem Orderly.launched?_started {s : Scene size chunk σ φ ε} (hs : s.Orderly)
    {a : Action σ ε} {result : Except CommandError Nat}
    (h : (s.act a).1 = .answered (.started result)) : s.launched? a = result.toOption := by
  obtain ⟨x, rfl⟩ | ⟨r, e, d, run, ha⟩ | ⟨hq, -⟩ := s.act_cases a
  · have hx :
      ((x.apply s.device).1.elim .quiet .ticked : Event ε) = .answered (.started result) := h
    cases ht : (x.apply s.device).1 with
    | none => simp [ht] at hx
    | some t => simp [ht] at hx
  · have hp := ha.device_eq.1
    rw [ha.act_eq] at h
    obtain ⟨p, k, hq, -, -⟩ | ⟨x, e', hx, -, hQ⟩ := settle_cases (hs.meets ha)
    · simp [hq] at h
    · obtain rfl : x = .started result := Event.answered.inj (hx.symm.trans h)
      rw [← ha.act_eq] at hQ
      cases result with
      | ok n => exact launched?_eq_some (by rw [hQ.started n rfl, hp])
      | error c =>
        unfold launched?
        refine if_neg fun hstart => ?_
        have hplay := congrArg Playback.playing hstart
        simp [(hQ.failed c rfl).still, Playback.start] at hplay
  · simp [hq] at h

/-- Teardown is complete. Whatever has happened, a request that stops the animation runs the stop
first, and however its wait goes, what it returns to is torn down; it stays so until the next
start, and so long the loader does nothing at all and no tick shows anything. Between two commands
an animation plays exactly when the loader has a session and a file is open, and each start was let
go of once or still plays. -/
theorem teardown_complete (config : Config) (timing : Timing) (store : σ)
    (as : List (Action σ ε)) :
    let first : Scene size chunk σ φ ε := initial config timing store
    let s := first.after as
    (∀ (r : Request ε) e, s.hand = .free e → r.stops e s.device = true →
      (∃ k, r.routine e s.device = (Device.stop s.device).bind k) ∧
      (Device.stop s.device).Meets (Resumes fun _ => True) (fun _ _ _ => True)
        (fun _ _ d => d.TornDown) s.device) ∧
    (∀ a, s.StopReturns a → s.launched? a = none → (s.act a).2.device.TornDown) ∧
    (s.device.TornDown → ∀ bs, s.launches bs = 0 →
      (s.after bs).device.TornDown ∧ (s.after bs).device.pollLoader = (s.after bs).device ∧
      (s.after bs).device.tick = (.idle, (s.after bs).device)) ∧
    (∀ e, s.hand = .free e →
      s.device.playback.playing = s.device.playback.loaderActive ∧
      s.device.playback.loaderActive = s.device.file.isSome ∧
      first.launches as = s.device.display.releases + s.device.playback.playing.toNat) ∧
    (∀ a result, (s.act a).1 = .answered (.started result) →
      s.launched? a = result.toOption) := by
  intro first s
  have hfirst : first.Orderly := .initial config timing store
  have hs : s.Orderly := hfirst.after as
  refine ⟨fun r e he hr => ⟨r.stops_first hr, ?_⟩, fun a ha hn => hs.tornDown_return ha hn,
    fun ht bs hn => ?_, fun e he => ?_, fun a result h => hs.launched?_started h⟩
  · have hstop : (Device.stop s.device).Meets (Resumes fun _ => True) _ _ _ :=
      stop_meets hs.coherent (hs.free he)
    exact (hstop.imp fun _ _ _ h => h.tornDown).mono fun _ _ _ _ => trivial
  · have hdown := hs.tornDown_after ht hn
    exact ⟨hdown, hdown.poll, hdown.tick⟩
  · obtain ⟨hplay, hfile⟩ := hs.free he
    have hcharge : s.device.charge = first.launches as + 0 := hfirst.charge_after as
    refine ⟨hplay, hfile, ?_⟩
    rw [hplay, hfile]
    exact hcharge.symm

end Scene

end PanelLink
