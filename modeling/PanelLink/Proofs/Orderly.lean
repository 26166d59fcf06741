import PanelLink.Proofs.Animation

/-!
Whatever happens to a scene, its device stays in order; and each action either begins an animation
or leaves as many as there were.
-/
namespace PanelLink

open Device

variable {size chunk : Nat} {σ φ δ ε : Type}

namespace Scene

/-- The invariant of every scene: the signals, the loader and the playback are coherent, and between
two commands the device is settled. -/
structure Orderly [FileStore σ φ δ] (s : Scene size chunk σ φ ε) : Prop where
  coherent : s.device.Coherent
  sound : s.Sound (fun _ => True) (fun _ d => d.Coherent ∧ d.Settled) Paused Ended
  settled : ∀ r e k, s.hand = .busy r e .delivery k → s.device.Settled
  halted : ∀ r e k, s.hand = .busy r e .acknowledgement k → s.device.playback.playing = false

variable [FileStore σ φ δ]

theorem Orderly.initial (config : Config) (timing : Timing) (store : σ) :
    (initial config timing store : Scene size chunk σ φ ε).Orderly where
  coherent := .initial timing store
  sound := ⟨.initial timing store, .initial timing store⟩
  settled r e k h := by simp [Scene.initial] at h
  halted r e k h := by simp [Scene.initial] at h

theorem Orderly.free {s : Scene size chunk σ φ ε} (hs : s.Orderly) {e : Endpoint chunk φ}
    (h : s.hand = .free e) : s.device.Settled :=
  (hs.sound.ready h).2

/-- What is left of a request keeps its promises about the animation. -/
theorem Orderly.meets {s : Scene size chunk σ φ ε} (hs : s.Orderly) {a r e d run}
    (h : s.Advances a r e d run) :
    run.Meets (Resumes fun _ => True) (Paused e r) (Ended e r) d :=
  hs.sound.meets (fun r e _ h => routine_animation e r h.1 h.2) h

theorem Orderly.act {s : Scene size chunk σ φ ε} (hs : s.Orderly) (a : Action σ ε) :
    (s.act a).2.Orderly := by
  have hsound := sound_act hs.sound a (fun _ _ => trivial)
    (fun x e d _ h => ⟨h.1.aside x, h.2.aside h.1 x⟩)
    (fun r e d h => routine_animation e r h.1 h.2)
    (fun r e v x e' w h => ⟨h.atEnd.coherent, h.atEnd.settled⟩)
  obtain ⟨x, rfl⟩ | ⟨r, e, d, run, h⟩ | ⟨-, h | ⟨r, e, p, k, hh, hp, h⟩⟩ := s.act_cases a
  · refine ⟨hs.coherent.aside x, hsound, fun r e k hh => ?_, fun r e k hh => ?_⟩
    · exact (hs.settled r e k hh).aside hs.coherent x
    · have hhalt : Halted s.device s.device := ⟨hs.coherent, hs.halted r e k hh, rfl, rfl, rfl⟩
      exact (hhalt.aside x).still
  · have hcases := settle_cases (hs.meets h)
    rw [h.act_eq] at hsound ⊢
    obtain ⟨p, k, -, hh, hT⟩ | ⟨x, e', -, hh, hQ⟩ := hcases
    · refine ⟨hT.coherent, hsound, fun r e k hk => ?_, fun r e k hk => ?_⟩
      · rw [hh] at hk
        cases hk
        exact hT.settled rfl
      · rw [hh] at hk
        cases hk
        exact (hT.halted rfl).1
    · refine ⟨hQ.atEnd.coherent, hsound, fun r e k hk => ?_, fun r e k hk => ?_⟩ <;>
        simp [hh] at hk
  · rwa [h]
  · rw [h] at hsound ⊢
    refine ⟨hs.coherent.arrived p, hsound, fun r e k hk => ?_, fun r e k hk => ?_⟩
    · obtain ⟨-, -, rfl, -⟩ := Hand.busy.inj (hh.symm.trans hk)
      simp [Device.arrived] at hp
    · have hhalt : Halted s.device s.device := ⟨hs.coherent, hs.halted r e k hk, rfl, rfl, rfl⟩
      exact (hhalt.arrived p).still

theorem Orderly.after {s : Scene size chunk σ φ ε} (hs : s.Orderly) (as : List (Action σ ε)) :
    (s.after as).Orderly :=
  after_induct (fun _ => True) (fun _ a _ h => h.act a) (fun _ _ => trivial) hs

/-! ## Beginning an animation -/

def launched? (s : Scene size chunk σ φ ε) (a : Action σ ε) : Option Nat :=
  let p := (s.act a).2.device.playback
  if p = s.device.playback.start p.frameCount then some p.frameCount else none

def launches (s : Scene size chunk σ φ ε) : List (Action σ ε) → Nat
  | [] => 0
  | a :: as => (s.launched? a).isSome.toNat + (s.act a).2.launches as

theorem launched?_eq_none {s : Scene size chunk σ φ ε} {a : Action σ ε}
    (h : (s.act a).2.device.playback.session = s.device.playback.session) :
    s.launched? a = none := by
  unfold launched?
  refine if_neg fun hp => ?_
  have hs : s.device.playback.session = s.device.playback.session + 1 :=
    h.symm.trans (congrArg Playback.session hp)
  have hn := congrArg UInt32.toNat hs
  have hlt := s.device.playback.session.toNat_lt
  rw [UInt32.toNat_add] at hn
  simp only [UInt32.toNat_one] at hn
  omega

theorem launched?_eq_some {s : Scene size chunk σ φ ε} {a : Action σ ε} {n : Nat}
    (h : (s.act a).2.device.playback = s.device.playback.start n) : s.launched? a = some n := by
  unfold launched?
  rw [h]
  exact if_pos rfl

/-- Nothing that goes on beside the commands begins an animation, or lets go of one. -/
theorem aside_session {d : Device size σ φ} (hc : d.Coherent) (a : Aside σ) :
    (a.apply d).2.playback.session = d.playback.session ∧ (a.apply d).2.charge = d.charge := by
  have htick : d.tick.2.playback.session = d.playback.session ∧ d.tick.2.charge = d.charge := by
    obtain ⟨-, h, -⟩ | ⟨-, h, -⟩ | ⟨-, -, -, h⟩ := d.tick_cases <;>
      rw [h] <;>
      exact ⟨rfl, rfl⟩
  cases a with
  | poll =>
    obtain ⟨hd, hf⟩ := poll_display hc
    show d.pollLoader.playback.session = _ ∧ d.pollLoader.charge = _
    refine ⟨?_, by rw [charge, charge, hd, hf]⟩
    obtain h | ⟨-, h⟩ | ⟨-, h⟩ := poll_playback hc <;> rw [h]
  | tick => exact htick
  | timer =>
    show d.pollTimer.playback.session = _ ∧ d.pollTimer.charge = _
    unfold pollTimer
    split
    · exact htick
    · exact ⟨rfl, rfl⟩
  | alter change => exact ⟨rfl, rfl⟩
  | setFault fault => exact ⟨rfl, rfl⟩

/-- A request goes on from the device that there is, less a signal that it takes. -/
theorem Advances.device_rest {s : Scene size chunk σ φ ε} {a r e d run}
    (h : s.Advances a r e d run) : ∃ b, d = { s.device with leftSignal := b } := by
  cases h with
  | request _ => exact ⟨s.device.leftSignal, rfl⟩
  | @resume r e p k d _ ha =>
    obtain ⟨b, hrest⟩ := s.device.arrived_rest p
    rw [ha] at hrest
    exact ⟨b, hrest⟩

theorem Advances.device_eq {s : Scene size chunk σ φ ε} {a r e d run}
    (h : s.Advances a r e d run) :
    d.playback = s.device.playback ∧ d.buffers = s.device.buffers ∧ d.file = s.device.file ∧
      d.display = s.device.display ∧ d.store = s.device.store := by
  obtain ⟨b, hd⟩ := h.device_rest
  rw [hd]
  exact ⟨rfl, rfl, rfl, rfl, rfl⟩

/-- What goes on with a request does to the animation what the request may. -/
theorem Orderly.shift {s : Scene size chunk σ φ ε} (hs : s.Orderly) {a r e d run}
    (h : s.Advances a r e d run) :
    Shift (r.animation? e) s.device (s.act a).2.device := by
  obtain ⟨hp, hb, hf, hd, -⟩ := h.device_eq
  have hcharge : d.charge = s.device.charge := by rw [charge, charge, hf, hd]
  have hshift : Shift (r.animation? e) d (s.act a).2.device := by
    rw [h.act_eq]
    obtain ⟨p, k, -, -, hT⟩ | ⟨x, e', -, -, hQ⟩ := settle_cases (hs.meets h)
    · exact hT.shift
    · exact hQ.atEnd.shift
  cases hshift with
  | quiet h₁ h₂ h₃ h₄ => exact .quiet (h₁.trans hp) (h₂.trans hb) (h₃.trans hf) (h₄.trans hd)
  | idle h₁ h₂ h₃ => exact .idle h₁ (by rw [h₂, hp]) (h₃.trans hcharge)
  | launch h₁ h₂ h₃ h₄ h₅ => exact .launch h₁ (by rw [h₂, hp]) h₃ h₄ (by rw [h₅, hcharge])

/-- Each animation that was begun has been released once, or its file is still open. -/
theorem Orderly.charge_act {s : Scene size chunk σ φ ε} (hs : s.Orderly) (a : Action σ ε) :
    (s.act a).2.device.charge = (s.launched? a).isSome.toNat + s.device.charge := by
  have hquiet (hp : (s.act a).2.device.playback.session = s.device.playback.session)
      (hc : (s.act a).2.device.charge = s.device.charge) :
      (s.act a).2.device.charge = (s.launched? a).isSome.toNat + s.device.charge := by
    rw [launched?_eq_none hp, hc]
    exact (Nat.zero_add _).symm
  obtain ⟨x, rfl⟩ | ⟨r, e, d, run, h⟩ | ⟨-, h | ⟨r, e, p, k, -, -, h⟩⟩ := s.act_cases a
  · obtain ⟨hp, hc⟩ := aside_session hs.coherent x
    exact hquiet hp hc
  · cases hs.shift h with
    | quiet h₁ _ h₃ h₄ => exact hquiet (by rw [h₁]) (by rw [charge, charge, h₃, h₄])
    | idle _ h₂ h₃ => exact hquiet h₂ h₃
    | launch _ h₂ _ _ h₅ =>
      rw [launched?_eq_some h₂, h₅]
      exact Nat.add_comm _ _
  · exact hquiet (by rw [h]) (by rw [h])
  · obtain ⟨b, hd⟩ := s.device.arrived_rest p
    exact hquiet (by rw [h, hd]) (by rw [h, hd]; rfl)

theorem Orderly.charge_after {s : Scene size chunk σ φ ε} (hs : s.Orderly)
    (as : List (Action σ ε)) :
    (s.after as).device.charge = s.launches as + s.device.charge := by
  induction as generalizing s with
  | nil => exact (Nat.zero_add _).symm
  | cons a as ih =>
    show ((s.act a).2.after as).device.charge =
      (s.launched? a).isSome.toNat + (s.act a).2.launches as + s.device.charge
    rw [ih (hs.act a), hs.charge_act a]
    omega

end Scene

end PanelLink
