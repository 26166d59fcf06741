import PanelLink.Proofs.Likeness
import PanelLink.Proofs.Handler

/-!
Two runs at once. They are in tandem if they pause at the same points and end with results that
correspond, whatever goes on with either of the two devices during the pauses.
-/
namespace PanelLink

namespace Run

variable {ω α α' β β' : Type} {E T : Pause → ω → ω → ω → ω → Prop}

/-- Both runs have come to the same pause, or both are done. Each stretch that ends in a pause is as
`T` says and the last one as `Q` says, if pauses end as `E` says. -/
def Tandem (E T : Pause → ω → ω → ω → ω → Prop) (Q : ω → ω → α → ω → β → ω → Prop) :
    ω → ω → Run ω α → Run ω β → Prop
  | v, v', done a w, done b w' => Q v v' a w b w'
  | v, v', paused p w k, paused p' w' k' =>
    p = p' ∧ T p v v' w w' ∧ ∀ u u', E p w w' u u' → Tandem E T Q u u' (k u) (k' u')
  | _, _, _, _ => False

theorem Tandem.imp {Q Q' : ω → ω → α → ω → β → ω → Prop} {v v' : ω} {r : Run ω α} {r' : Run ω β}
    (h : r.Tandem E T Q v v' r') (hQ : ∀ v v' a w b w', Q v v' a w b w' → Q' v v' a w b w') :
    r.Tandem E T Q' v v' r' := by
  induction r generalizing v v' r' with
  | done a w =>
    cases r' with
    | done b w' => exact hQ v v' a w b w' h
    | paused p w' k' => exact h
  | paused p w k ih =>
    cases r' with
    | done b w' => exact h
    | paused p' w' k' => exact ⟨h.1, h.2.1, fun u u' hu => ih u (h.2.2 u u' hu)⟩

protected theorem Tandem.bind {Q : ω → ω → α' → ω → β' → ω → Prop} {f : α → ω → Run ω α'}
    {g : β → ω → Run ω β'} {v v' : ω} {r : Run ω α} {r' : Run ω β}
    (h : r.Tandem E T (fun v v' a w b w' => (f a w).Tandem E T Q v v' (g b w')) v v' r') :
    (r.bind f).Tandem E T Q v v' (r'.bind g) := by
  induction r generalizing v v' r' with
  | done a w =>
    cases r' with
    | done b w' => exact h
    | paused p w' k' => exact h.elim
  | paused p w k ih =>
    cases r' with
    | done b w' => exact h.elim
    | paused p' w' k' => exact ⟨h.1, h.2.1, fun u u' hu => ih u (h.2.2 u u' hu)⟩

end Run

variable {size chunk : Nat} {σ φ δ ε α α' β β' γ : Type}

/-- What is known of two executions: of the devices when their present stretches began, and of what
is served and the devices now. -/
abbrev Bond (size chunk : Nat) (σ φ ε : Type) :=
  Device size σ φ → Device size σ φ → Serving chunk φ ε → Device size σ φ → Serving chunk φ ε →
    Device size σ φ → Prop

/-- How two devices go on from the pauses that they are in. -/
abbrev Onward (size : Nat) (σ φ : Type) :=
  Pause → Device size σ φ → Device size σ φ → Device size σ φ → Device size σ φ → Prop

variable {E T : Onward size σ φ} {J : Bond size chunk σ φ ε}

namespace Agree

variable {ι : Type} {R : α → β → Prop}

theorem of_eq {x : Except ι α} {y : Except ι α} (h : x = y) : Agree Eq x y := by
  cases h
  cases x with
  | error e => exact .error e
  | ok a => exact .ok rfl

theorem mapError (f : ι → γ) {x : Except ι α} {y : Except ι β} (h : Agree R x y) :
    Agree R (x.mapError f) (y.mapError f) := by
  cases h with
  | error e => exact .error (f e)
  | ok hab => exact .ok hab

end Agree

namespace Conduct

/-- Where `J` holds both parts run in tandem, to results that `R` relates, and keep `J`. -/
def Tandem (E T : Onward size σ φ) (J : Bond size chunk σ φ ε) (R : α → β → Prop)
    (c : Conduct size chunk σ φ ε α) (c' : Conduct size chunk σ φ ε β) : Prop :=
  ∀ v v' s d s' d', J v v' s d s' d' →
    (c.on s d).Tandem E T (fun v v' x w y w' => R x.1 y.1 ∧ J v v' x.2 w y.2 w') v v' (c'.on s' d')

namespace Tandem

variable {R : α → β → Prop} {R' : α' → β' → Prop} {c : Conduct size chunk σ φ ε α}
  {c' : Conduct size chunk σ φ ε β}

protected theorem bind {f : α → Conduct size chunk σ φ ε α'} {g : β → Conduct size chunk σ φ ε β'}
    (hc : Tandem E T J R c c') (hf : ∀ a b, R a b → Tandem E T J R' (f a) (g b)) :
    Tandem E T J R' (c >>= f) (c' >>= g) := by
  intro v v' s d s' d' h
  rw [on_bind, on_bind]
  refine Run.Tandem.bind ((hc v v' s d s' d' h).imp ?_)
  intro v v' x w y w' hx
  exact hf x.1 y.1 hx.1 v v' x.2 w y.2 w' hx.2

/-- After the same result on both sides. -/
theorem andThen {c c' : Conduct size chunk σ φ ε α} {f : α → Conduct size chunk σ φ ε α'}
    {g : α → Conduct size chunk σ φ ε β'} (hc : Tandem E T J Eq c c')
    (hf : ∀ a, Tandem E T J R' (f a) (g a)) : Tandem E T J R' (c >>= f) (c' >>= g) := by
  refine Tandem.bind hc ?_
  rintro a b rfl
  exact hf a

protected theorem pure {a : α} {b : β} (h : R a b) : Tandem E T J R (pure a) (pure b) :=
  fun _ _ _ _ _ _ hJ => ⟨h, hJ⟩

end Tandem

end Conduct

namespace Handler

abbrev Tandem (E T : Onward size σ φ) (J : Bond size chunk σ φ ε) (R : α → β → Prop)
    (h : Handler size chunk σ φ ε α) (h' : Handler size chunk σ φ ε β) : Prop :=
  Conduct.Tandem E T J (Agree R) h.run h'.run

namespace Tandem

variable {R : α → β → Prop} {R' : α' → β' → Prop} {h : Handler size chunk σ φ ε α}
  {h' : Handler size chunk σ φ ε β}

protected theorem bind {f : α → Handler size chunk σ φ ε α'}
    {g : β → Handler size chunk σ φ ε β'} (hh : Tandem E T J R h h')
    (hf : ∀ a b, R a b → Tandem E T J R' (f a) (g b)) :
    Tandem E T J R' (h >>= f) (h' >>= g) := by
  intro v v' s d s' d' hJ
  rw [Conduct.on_run, Conduct.on_run, on_bind, on_bind]
  refine Run.Tandem.bind ((hh v v' s d s' d' hJ).imp ?_)
  rintro v v' ⟨x, s⟩ w ⟨y, s'⟩ w' ⟨hxy, hJ⟩
  cases hxy with
  | error e => exact ⟨.error e, hJ⟩
  | ok hab => exact hf _ _ hab v v' s w s' w' hJ

/-- After the same result on both sides. -/
theorem andThen {h h' : Handler size chunk σ φ ε α} {f : α → Handler size chunk σ φ ε α'}
    {g : α → Handler size chunk σ φ ε β'} (hh : Tandem E T J Eq h h')
    (hf : ∀ a, Tandem E T J R' (f a) (g a)) : Tandem E T J R' (h >>= f) (h' >>= g) := by
  refine Tandem.bind hh ?_
  rintro a b rfl
  exact hf a

protected theorem pure {a : α} {b : β} (hab : R a b) : Tandem E T J R (pure a) (pure b) :=
  fun _ _ _ _ _ _ hJ => ⟨.ok hab, hJ⟩

theorem throw (e : CommandError) :
    Tandem E T J R (MonadExcept.throw e : Handler size chunk σ φ ε α)
      (MonadExcept.throw e : Handler size chunk σ φ ε β) :=
  fun _ _ _ _ _ _ hJ => ⟨.error e, hJ⟩

theorem always {c : Conduct size chunk σ φ ε α} {c' : Conduct size chunk σ φ ε β}
    (hc : Conduct.Tandem E T J R c c') : Tandem E T J R (Handler.always c) (Handler.always c') := by
  intro v v' s d s' d' hJ
  rw [Conduct.on_run, Conduct.on_run, on_always, on_always]
  refine Run.Tandem.bind ((hc v v' s d s' d' hJ).imp ?_)
  intro v v' x w y w' hx
  exact ⟨.ok hx.1, hx.2⟩

theorem ofExcept {cause : γ → CommandError} {r : Except γ α} {r' : Except γ β} (hr : Agree R r r') :
    Tandem E T J R (Handler.ofExcept cause r) (Handler.ofExcept cause r') := by
  intro v v' s d s' d' hJ
  rw [Conduct.on_run, Conduct.on_run, on_ofExcept, on_ofExcept]
  exact ⟨hr.mapError cause, hJ⟩

theorem settle (cause : γ → CommandError) (r : Except γ α) :
    Tandem E T J Eq (Handler.ofExcept cause r) (Handler.ofExcept cause r) :=
  ofExcept (.of_eq rfl)

end Tandem

end Handler

end PanelLink
