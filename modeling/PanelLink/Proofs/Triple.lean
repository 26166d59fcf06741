import PanelLink.Proofs.Handler

/-!
Promises about the parts of a command. An assertion may mention the device as it was when the
present stretch of the command began; a pause begins the next one.
-/
namespace PanelLink

/-- What is known in the middle of a command: of the device when the present stretch began, of what
is served, and of the device now. -/
abbrev Assertion (size chunk : Nat) (σ φ ε : Type) :=
  Device size σ φ → Serving chunk φ ε → Device size σ φ → Prop

variable {size chunk : Nat} {σ φ δ ε α β γ : Type}
variable {R T : Pause → Device size σ φ → Device size σ φ → Prop}
variable {P P' : Assertion size chunk σ φ ε}

namespace Conduct

/-- Where `P` holds the part comes to where `Q` holds, and its pauses are as `T` says. -/
def Triple (R T : Pause → Device size σ φ → Device size σ φ → Prop)
    (P : Assertion size chunk σ φ ε) (c : Conduct size chunk σ φ ε α)
    (Q : α → Assertion size chunk σ φ ε) : Prop :=
  ∀ v s d, P v s d → (c.on s d).Meets R T (fun v x w => Q x.1 v x.2 w) v

namespace Triple

variable {Q Q' : α → Assertion size chunk σ φ ε} {c : Conduct size chunk σ φ ε α}

theorem weaken (hc : Triple R T P c Q) (hP : ∀ v s d, P' v s d → P v s d)
    (hQ : ∀ a v s d, Q a v s d → Q' a v s d) : Triple R T P' c Q' := by
  intro v s d h
  exact (hc v s d (hP v s d h)).imp fun v x w => hQ x.1 v x.2 w

protected theorem bind {f : α → Conduct size chunk σ φ ε β} {Q' : β → Assertion size chunk σ φ ε}
    (hc : Triple R T P c Q) (hf : ∀ a, Triple R T (Q a) (f a) Q') : Triple R T P (c >>= f) Q' := by
  intro v s d h
  rw [on_bind, Run.meets_bind]
  exact (hc v s d h).imp fun v x w => hf x.1 v x.2 w

protected theorem pure {a : α} (h : ∀ v s d, P v s d → Q a v s d) : Triple R T P (pure a) Q :=
  fun v s d hP => h v s d hP

theorem skip {a : α} : Triple R T P (pure a) fun _ => P :=
  fun _ _ _ hP => hP

theorem get {Q : Serving chunk φ ε → Assertion size chunk σ φ ε}
    (h : ∀ v s d, P v s d → Q s v s d) :
    Triple R T P (MonadState.get : Conduct size chunk σ φ ε _) Q :=
  fun v s d hP => h v s d hP

theorem onDevice {f : Device size σ φ → α × Device size σ φ}
    (h : ∀ v s d, P v s d → Q (f d).1 v s (f d).2) : Triple R T P (Conduct.onDevice f) Q :=
  fun v s d hP => h v s d hP

theorem onStore {f : σ → α × σ}
    (h : ∀ v s d, P v s d → Q (f d.store).1 v s { d with store := (f d.store).2 }) :
    Triple R T P (Conduct.onStore f) Q :=
  fun v s d hP => h v s d hP

theorem setHeld {held : Bool} {Q : Unit → Assertion size chunk σ φ ε}
    (h : ∀ v s d, P v s d → Q () v s { d with held := held }) :
    Triple R T P (Conduct.setHeld held) Q :=
  fun v s d hP => h v s d hP

theorem ofRoutine {r : Routine (Device size σ φ) α}
    (h : ∀ v s d, P v s d → (r d).Meets R T (fun v a w => Q a v s w) v) :
    Triple R T P (Conduct.ofRoutine r) Q := by
  intro v s d hP
  rw [on_ofRoutine, Run.meets_bind]
  exact h v s d hP

/-- A reply that is sent leaves a pause behind it, unless the transport is quick or refuses. -/
theorem post {r : Reply} {Q : Bool → Assertion size chunk σ φ ε}
    (pause : ∀ v s d, P v s d → s.outbox.transport.slow = true →
      T .delivery v d ∧ ∀ w, R .delivery d w → P w s w)
    (sent : ∀ b v s d, P v s d → Q b v { s with outbox := (s.outbox.post r).2 } d) :
    Triple R T P (Conduct.post r) Q := by
  intro v s d hP
  rw [on_post]
  split
  · rename_i hslow
    obtain ⟨hT, hw⟩ := pause v s d hP (Bool.and_eq_true_iff.mp hslow).2
    exact ⟨hT, fun w hR => sent _ w s w (hw w hR)⟩
  · exact sent _ v s d hP

end Triple

end Conduct

namespace Handler

def outcome (Q : α → Assertion size chunk σ φ ε) (E : Assertion size chunk σ φ ε) :
    Except CommandError α → Assertion size chunk σ φ ε
  | .ok a => Q a
  | .error _ => E

def Triple (R T : Pause → Device size σ φ → Device size σ φ → Prop)
    (P : Assertion size chunk σ φ ε) (h : Handler size chunk σ φ ε α)
    (Q : α → Assertion size chunk σ φ ε) (E : Assertion size chunk σ φ ε) : Prop :=
  Conduct.Triple R T P h.run (outcome Q E)

abbrev Keeps (R T : Pause → Device size σ φ → Device size σ φ → Prop)
    (J : Assertion size chunk σ φ ε) (h : Handler size chunk σ φ ε α) : Prop :=
  Triple R T J h (fun _ => J) J

namespace Triple

variable {Q Q' : α → Assertion size chunk σ φ ε} {E E' : Assertion size chunk σ φ ε}
  {h : Handler size chunk σ φ ε α}

theorem weaken (hh : Triple R T P h Q E) (hP : ∀ v s d, P' v s d → P v s d)
    (hQ : ∀ a v s d, Q a v s d → Q' a v s d) (hE : ∀ v s d, E v s d → E' v s d) :
    Triple R T P' h Q' E' := by
  refine Conduct.Triple.weaken hh hP ?_
  rintro (e | a) v s d
  · exact hE v s d
  · exact hQ a v s d

protected theorem bind {f : α → Handler size chunk σ φ ε β} {Q' : β → Assertion size chunk σ φ ε}
    (hh : Triple R T P h Q E) (hf : ∀ a, Triple R T (Q a) (f a) Q' E) :
    Triple R T P (h >>= f) Q' E := by
  intro v s d hP
  rw [Conduct.on_run, on_bind, Run.meets_bind]
  refine (hh v s d hP).imp fun v x w hx => ?_
  obtain ⟨_ | a, s⟩ := x
  · exact hx
  · exact hf a v s w hx

protected theorem pure {a : α} (hQ : ∀ v s d, P v s d → Q a v s d) : Triple R T P (pure a) Q E :=
  fun v s d hP => hQ v s d hP

theorem throw {e : CommandError} (hE : ∀ v s d, P v s d → E v s d) :
    Triple R T P (MonadExcept.throw e : Handler size chunk σ φ ε α) Q E :=
  fun v s d hP => hE v s d hP

theorem skip {a : α} : Triple R T P (pure a) (fun _ => P) E :=
  fun _ _ _ hP => hP

theorem fail {e : CommandError} :
    Triple R T P (MonadExcept.throw e : Handler size chunk σ φ ε α) Q P :=
  fun _ _ _ hP => hP

theorem always {c : Conduct size chunk σ φ ε α} (hc : Conduct.Triple R T P c Q) :
    Triple R T P (Handler.always c) Q E := by
  intro v s d hP
  rw [Conduct.on_run, on_always, Run.meets_bind]
  exact hc v s d hP

theorem endpoint {Q : Endpoint chunk φ → Assertion size chunk σ φ ε}
    (hQ : ∀ v s d, P v s d → Q s.endpoint v s d) : Triple R T P Handler.endpoint Q E :=
  fun v s d hP => hQ v s d hP

theorem modifyEndpoint {f : Endpoint chunk φ → Endpoint chunk φ}
    {Q : Unit → Assertion size chunk σ φ ε}
    (hQ : ∀ v s d, P v s d → Q () v { s with endpoint := f s.endpoint } d) :
    Triple R T P (Handler.modifyEndpoint f) Q E :=
  fun v s d hP => hQ v s d hP

theorem ofExcept {cause : γ → CommandError} {r : Except γ α}
    (hQ : ∀ a, r = .ok a → ∀ v s d, P v s d → Q a v s d) (hE : ∀ v s d, P v s d → E v s d) :
    Triple R T P (Handler.ofExcept cause r) Q E := by
  cases r with
  | error e => exact throw hE
  | ok a => exact Triple.pure (hQ a rfl)

theorem settle {cause : γ → CommandError} {r : Except γ α} :
    Keeps R T P (Handler.ofExcept cause r) :=
  ofExcept (fun _ _ _ _ _ h => h) fun _ _ _ h => h

theorem callStore {f : σ → Except StorageError α × σ}
    (hQ : ∀ v s d, P v s d → match f d.store with
      | (.ok a, t) => Q a v s { d with store := t }
      | (.error _, t) => E v s { d with store := t }) :
    Triple R T P (Handler.callStore f) Q E := by
  intro v s d hP
  rw [Conduct.on_run, on_callStore]
  have h := hQ v s d hP
  rcases hf : f d.store with ⟨_ | a, t⟩
  · rw [hf] at h
    exact h
  · rw [hf] at h
    exact h

/-- A call of the store that comes to the same whatever it answers. -/
theorem call {f : σ → Except StorageError α × σ}
    (h : ∀ v s d, P v s d → E v s { d with store := (f d.store).2 }) :
    Triple R T P (Handler.callStore f) (fun _ => E) E := by
  refine callStore fun v s d hP => ?_
  have hE := h v s d hP
  rcases hf : f d.store with ⟨_ | a, t⟩
  · rwa [hf] at hE
  · rwa [hf] at hE

/-- Naming a path changes nothing. -/
theorem pathArgument {payload : Bytes} {Q : Bytes → Assertion size chunk σ φ ε}
    (hQ : ∀ v s d path, P v s d → s.endpoint.pathOf payload = .ok path → Q path v s d)
    (hE : ∀ v s d, P v s d → E v s d) :
    Triple R T P (Handler.pathArgument payload) Q E := by
  intro v s d hP
  rw [Conduct.on_run, on_pathArgument]
  cases hp : s.endpoint.pathOf payload with
  | error e => exact hE v s d hP
  | ok path => exact hQ v s d path hP hp

theorem send {r : Reply}
    (pause : ∀ v s d, P v s d → s.outbox.transport.slow = true →
      T .delivery v d ∧ ∀ w, R .delivery d w → P w s w)
    (sent : ∀ v s d, P v s d → P v { s with outbox := (s.outbox.post r).2 } d) :
    Keeps R T P (Handler.send r) := by
  refine Triple.bind (always (Conduct.Triple.post (Q := fun _ => P) pause fun _ => sent))
    fun b => ?_
  cases b with
  | false => exact throw fun _ _ _ h => h
  | true => exact Triple.pure fun _ _ _ h => h

end Triple

end Handler

end PanelLink
