import PanelLink.Scene

/-!
What a command may rely on and what it owes. A run goes from pause to pause; each stretch of it
starts in some world, which a promise about the stretch may mention, and a pause may end in any
world that the tasks beside the command can reach from the one it began in.
-/
namespace PanelLink

namespace Run

variable {ω α β : Type} {R : Pause → ω → ω → Prop} {T : Pause → ω → ω → Prop}

/-- Each stretch of the run that ends in a pause is as `T` says and the last one as `Q` says, from
the world at its start to the one at its end, if pauses end as `R` says. -/
def Meets (R T : Pause → ω → ω → Prop) (Q : ω → α → ω → Prop) : ω → Run ω α → Prop
  | v, done a w => Q v a w
  | v, paused p w k => T p v w ∧ ∀ w', R p w w' → Meets R T Q w' (k w')

theorem meets_bind {Q : ω → β → ω → Prop} {f : α → ω → Run ω β} {v : ω} {r : Run ω α} :
    (r.bind f).Meets R T Q v ↔ r.Meets R T (fun v a w => (f a w).Meets R T Q v) v := by
  induction r generalizing v with
  | done a w => rfl
  | paused p w k ih =>
    exact and_congr_right fun _ => forall_congr' fun w' => imp_congr_right fun _ => ih w'

theorem meets_of_forall {Q : ω → α → ω → Prop} (hT : ∀ p v w, T p v w) (hQ : ∀ v a w, Q v a w)
    (v : ω) (r : Run ω α) : r.Meets R T Q v := by
  induction r generalizing v with
  | done a w => exact hQ v a w
  | paused p w k ih => exact ⟨hT p v w, fun w' _ => ih w' w'⟩

theorem Meets.imp {Q Q' : ω → α → ω → Prop} {v : ω} {r : Run ω α} (h : r.Meets R T Q v)
    (hQ : ∀ v a w, Q v a w → Q' v a w) : r.Meets R T Q' v := by
  induction r generalizing v with
  | done a w => exact hQ v a w h
  | paused p w k ih => exact ⟨h.1, fun w' hw => ih w' (h.2 w' hw)⟩

theorem Meets.mono {T' : Pause → ω → ω → Prop} {Q : ω → α → ω → Prop} {v : ω} {r : Run ω α}
    (h : r.Meets R T Q v) (hT : ∀ p v w, T p v w → T' p v w) : r.Meets R T' Q v := by
  induction r generalizing v with
  | done a w => exact h
  | paused p w k ih => exact ⟨hT p v w h.1, fun w' hw => ih w' (h.2 w' hw)⟩

theorem Meets.and {T' : Pause → ω → ω → Prop} {Q Q' : ω → α → ω → Prop} {v : ω} {r : Run ω α}
    (h : r.Meets R T Q v) (h' : r.Meets R T' Q' v) :
    r.Meets R (fun p v w => T p v w ∧ T' p v w) (fun v a w => Q v a w ∧ Q' v a w) v := by
  induction r generalizing v with
  | done a w => exact ⟨h, h'⟩
  | paused p w k ih => exact ⟨⟨h.1, h'.1⟩, fun w' hw => ih w' (h.2 w' hw) (h'.2 w' hw)⟩

/-- A run that must not pause comes to its end at once. -/
theorem Meets.done {Q : ω → α → ω → Prop} {v : ω} {r : Run ω α}
    (h : r.Meets R (fun _ _ _ => False) Q v) : ∃ a w, r = .done a w ∧ Q v a w := by
  cases r with
  | done a w => exact ⟨a, w, rfl, h⟩
  | paused p w k => exact h.1.elim

@[simp] theorem done_bind (a : α) (w : ω) (f : α → ω → Run ω β) : (done a w).bind f = f a w := rfl

@[simp] theorem paused_bind (p : Pause) (w : ω) (k : ω → Run ω α) (f : α → ω → Run ω β) :
    (paused p w k).bind f = paused p w fun w => (k w).bind f := rfl
end Run

variable {size chunk : Nat} {σ φ δ ε : Type}

abbrev anyhow : Pause → Device size σ φ → Device size σ φ → Prop :=
  fun _ _ _ => True

variable [FileStore σ φ δ]

/-- How a pause ends: asides that `ok` allows come first, and the command looks now and then. -/
inductive Device.Resumes (ok : Aside σ → Prop) (p : Pause) :
    Device size σ φ → Device size σ φ → Prop
  | ended {d d' : Device size σ φ} : d.arrived p = (true, d') → Resumes ok p d d'
  | look {d d' d'' : Device size σ φ} : d.arrived p = (false, d') → Resumes ok p d' d'' →
      Resumes ok p d d''
  | aside {d d' : Device size σ φ} (a : Aside σ) : ok a → Resumes ok p (a.apply d).2 d' →
      Resumes ok p d d'

/-- What every aside and every look keeps, a pause keeps. -/
theorem Device.Resumes.induct {ok : Aside σ → Prop} {p : Pause} {P : Device size σ φ → Prop}
    (aside : ∀ d a, ok a → P d → P (a.apply d).2) (look : ∀ d, P d → P (d.arrived p).2)
    {d d' : Device size σ φ} (h : Device.Resumes ok p d d') : P d → P d' := by
  induction h with
  | ended h => exact fun hp => by simpa only [h] using look _ hp
  | look h _ ih => exact fun hp => ih (by simpa only [h] using look _ hp)
  | aside a ha _ ih => exact fun hp => ih (aside _ a ha hp)

end PanelLink
