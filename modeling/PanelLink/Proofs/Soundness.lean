import PanelLink.Proofs.Progress

/-!
From the promises of single commands to whole runs. A scene is sound while the endpoint is ready for
whatever comes, or the command in hand keeps its promises however its pause ends.
-/
namespace PanelLink

variable {size chunk : Nat} {σ φ δ ε : Type}

namespace Scene

def endpoint? (s : Scene size chunk σ φ ε) : Option (Endpoint chunk φ) :=
  match s.hand with
  | .free e => some e
  | .busy .. => none

theorem hand_of_endpoint? {s : Scene size chunk σ φ ε} {e : Endpoint chunk φ}
    (h : s.endpoint? = some e) : s.hand = .free e := by
  unfold endpoint? at h
  split at h
  · rename_i he
    rwa [← Option.some.inj h]
  · cases h

end Scene

variable [FileStore σ φ δ]

/-- What a request promises where it pauses. -/
abbrev Pausing (size chunk : Nat) (σ φ ε : Type) :=
  Endpoint chunk φ → Request ε → Pause → Device size σ φ → Device size σ φ → Prop

abbrev Ending (size chunk : Nat) (σ φ ε : Type) :=
  Endpoint chunk φ → Request ε → Device size σ φ → Answer ε × Endpoint chunk φ →
    Device size σ φ → Prop

namespace Scene

variable {ok : Aside σ → Prop} {Ready Ready' : Endpoint chunk φ → Device size σ φ → Prop}
variable {T T' : Pausing size chunk σ φ ε} {Q Q' : Ending size chunk σ φ ε}

/-- The endpoint is ready, or the command in hand keeps its promises. -/
def Sound (ok : Aside σ → Prop) (Ready : Endpoint chunk φ → Device size σ φ → Prop)
    (T : Pausing size chunk σ φ ε) (Q : Ending size chunk σ φ ε)
    (s : Scene size chunk σ φ ε) : Prop :=
  match s.hand with
  | .free e => Ready e s.device
  | .busy r e p resume => ∀ d, Device.Resumes ok p s.device d →
      (resume d).Meets (Device.Resumes ok) (T e r) (Q e r) d

section

variable {s : Scene size chunk σ φ ε} {r : Request ε} {e : Endpoint chunk φ} {p : Pause}
  {d : Device size σ φ}
  {resume : Device size σ φ → Run (Device size σ φ) (Answer ε × Endpoint chunk φ)}

theorem act_request (hs : s.hand = .free e) (r : Request ε) :
    s.act (.request r) = settle r e (r.routine e s.device) := by
  simp only [act, hs]

theorem act_request_busy (hs : s.hand = .busy r e p resume) (r' : Request ε) :
    s.act (.request r') = (.quiet, s) := by
  simp only [act, hs]

theorem act_resume_free (hs : s.hand = .free e) : s.act .resume = (.quiet, s) := by
  simp only [act, hs]

theorem act_resume (hs : s.hand = .busy r e p resume) (ha : s.device.arrived p = (true, d)) :
    s.act .resume = settle r e (resume d) := by
  simp only [act, hs, ha]

theorem act_look (hs : s.hand = .busy r e p resume) (ha : s.device.arrived p = (false, d)) :
    s.act .resume = (.quiet, { s with device := d }) := by
  simp only [act, hs, ha]

theorem Sound.ready (h : Sound ok Ready T Q s) (hs : s.hand = .free e) : Ready e s.device := by
  unfold Sound at h
  rwa [hs] at h

theorem Sound.resumed (h : Sound ok Ready T Q s) (hs : s.hand = .busy r e p resume)
    (hd : Device.Resumes ok p s.device d) :
    (resume d).Meets (Device.Resumes ok) (T e r) (Q e r) d := by
  unfold Sound at h
  rw [hs] at h
  exact h d hd

theorem Sound.imp (h : Sound ok Ready T Q s) (hReady : ∀ e d, Ready e d → Ready' e d)
    (hT : ∀ e r p v w, T e r p v w → T' e r p v w)
    (hQ : ∀ e r v x w, Q e r v x w → Q' e r v x w) : Sound ok Ready' T' Q' s := by
  unfold Sound at h ⊢
  cases hs : s.hand with
  | free e =>
    rw [hs] at h
    exact hReady e _ h
  | busy r e p resume =>
    rw [hs] at h
    exact fun d hd => ((h d hd).imp (hQ e r)).mono (hT e r)

end

/-- The action begins a request, or resumes the command in hand, on a device; with the rest of its
run. -/
inductive Advances (s : Scene size chunk σ φ ε) : Action σ ε → Request ε → Endpoint chunk φ →
    Device size σ φ → Run (Device size σ φ) (Answer ε × Endpoint chunk φ) → Prop
  | request {r e} : s.hand = .free e → Advances s (.request r) r e s.device (r.routine e s.device)
  | resume {r e p k d} : s.hand = .busy r e p k → s.device.arrived p = (true, d) →
      Advances s .resume r e d (k d)

theorem Advances.act_eq {s : Scene size chunk σ φ ε} {a r e d run} (h : s.Advances a r e d run) :
    s.act a = settle r e run := by
  cases h with
  | request hs => exact act_request hs r
  | resume hs ha => exact act_resume hs ha

/-- An action is an aside, or it goes on with a request, or it finds nothing to go on with. -/
theorem act_cases (s : Scene size chunk σ φ ε) (a : Action σ ε) :
    (∃ x, a = .aside x) ∨ (∃ r e d run, s.Advances a r e d run) ∨
    ((s.act a).1 = .quiet ∧ ((s.act a).2 = s ∨
      ∃ r e p k, s.hand = .busy r e p k ∧ (s.device.arrived p).1 = false ∧
        (s.act a).2 = { s with device := (s.device.arrived p).2 })) := by
  cases a with
  | aside x => exact .inl ⟨x, rfl⟩
  | request r =>
    cases hs : s.hand with
    | free e => exact .inr (.inl ⟨r, e, _, _, .request hs⟩)
    | busy r' e p k =>
      rw [act_request_busy hs]
      exact .inr (.inr ⟨rfl, .inl rfl⟩)
  | resume =>
    cases hs : s.hand with
    | free e =>
      rw [act_resume_free hs]
      exact .inr (.inr ⟨rfl, .inl rfl⟩)
    | busy r e p k =>
      rcases ha : s.device.arrived p with ⟨_ | _, d⟩
      · rw [act_look hs ha]
        exact .inr (.inr ⟨rfl, .inr ⟨r, e, p, k, rfl, by rw [ha], by rw [ha, hs]⟩⟩)
      · exact .inr (.inl ⟨r, e, d, _, .resume hs ha⟩)

/-- A stretch that keeps its promises ends in a pause or in an answer. -/
theorem settle_cases {r : Request ε} {e : Endpoint chunk φ}
    {run : Run (Device size σ φ) (Answer ε × Endpoint chunk φ)} {v : Device size σ φ}
    (h : run.Meets (Device.Resumes ok) (T e r) (Q e r) v) :
    (∃ p k, (settle r e run).1 = .quiet ∧ (settle r e run).2.hand = .busy r e p k ∧
      T e r p v (settle r e run).2.device) ∨
    (∃ a e', (settle r e run).1 = .answered a ∧ (settle r e run).2.hand = .free e' ∧
      Q e r v (a, e') (settle r e run).2.device) := by
  cases run with
  | done x w => exact .inr ⟨x.1, x.2, rfl, rfl, h⟩
  | paused p w k => exact .inl ⟨p, k, rfl, rfl, h.1⟩

theorem sound_settle {r : Request ε} {e : Endpoint chunk φ}
    {run : Run (Device size σ φ) (Answer ε × Endpoint chunk φ)} {v : Device size σ φ}
    (h : run.Meets (Device.Resumes ok) (T e r) (Q e r) v)
    (rest : ∀ v a e' w, Q e r v (a, e') w → Ready e' w) :
    Sound ok Ready T Q (settle r e run).2 := by
  cases run with
  | done x w => exact rest v x.1 x.2 w h
  | paused p w k => exact h.2

theorem sound_aside {s : Scene size chunk σ φ ε} (hs : Sound ok Ready T Q s) {a : Aside σ}
    (ha : ok a) (keep : ∀ e d, Ready e d → Ready e (a.apply d).2) :
    Sound ok Ready T Q (s.act (.aside a)).2 := by
  unfold Sound at *
  show match s.hand with
    | .free e => Ready e (a.apply s.device).2
    | .busy r e p resume => ∀ d, Device.Resumes ok p (a.apply s.device).2 d →
        (resume d).Meets (Device.Resumes ok) (T e r) (Q e r) d
  cases hh : s.hand with
  | free e =>
    rw [hh] at hs
    exact keep e s.device hs
  | busy r e p resume =>
    rw [hh] at hs
    exact fun d hd => hs d (.aside a ha hd)

theorem sound_look {s : Scene size chunk σ φ ε} (hs : Sound ok Ready T Q s) {r e p k}
    (hh : s.hand = .busy r e p k) (ha : (s.device.arrived p).1 = false) :
    Sound ok Ready T Q { s with device := (s.device.arrived p).2 } := by
  unfold Sound at *
  simp only [hh] at hs ⊢
  exact fun d hd => hs d (.look (Prod.ext ha rfl) hd)

/-- What is left of a request in a sound scene keeps its promises. -/
theorem Sound.meets {s : Scene size chunk σ φ ε} (hs : Sound ok Ready T Q s)
    (serve : ∀ (r : Request ε) e d, Ready e d →
      (r.routine e d).Meets (Device.Resumes ok) (T e r) (Q e r) d)
    {a r e d run} (h : s.Advances a r e d run) :
    run.Meets (Device.Resumes ok) (T e r) (Q e r) d := by
  cases h with
  | request hh => exact serve _ _ _ (hs.ready hh)
  | resume hh ha => exact hs.resumed hh (.ended ha)

theorem sound_act {s : Scene size chunk σ φ ε} (hs : Sound ok Ready T Q s) (a : Action σ ε)
    (ha : ∀ x, a = .aside x → ok x) (keep : ∀ x e d, ok x → Ready e d → Ready e (x.apply d).2)
    (serve : ∀ (r : Request ε) e d, Ready e d →
      (r.routine e d).Meets (Device.Resumes ok) (T e r) (Q e r) d)
    (rest : ∀ r e v x e' w, Q e r v (x, e') w → Ready e' w) :
    Sound ok Ready T Q (s.act a).2 := by
  obtain ⟨x, rfl⟩ | ⟨r, e, d, run, h⟩ | ⟨-, h | ⟨r, e, p, k, hh, hp, h⟩⟩ := s.act_cases a
  · exact sound_aside hs (ha x rfl) fun e d => keep x e d (ha x rfl)
  · rw [h.act_eq]
    exact sound_settle (hs.meets serve h) (rest r e)
  · rwa [h]
  · rw [h]
    exact sound_look hs hh hp

theorem after_append (s : Scene size chunk σ φ ε) (as bs : List (Action σ ε)) :
    s.after (as ++ bs) = (s.after as).after bs := by
  induction as generalizing s with
  | nil => rfl
  | cons a as ih => exact ih _

theorem events_append (s : Scene size chunk σ φ ε) (as bs : List (Action σ ε)) :
    s.events (as ++ bs) = s.events as ++ (s.after as).events bs := by
  induction as generalizing s with
  | nil => rfl
  | cons a as ih => exact congrArg _ (ih _)

theorem shown_append (s : Scene size chunk σ φ ε) (as bs : List (Action σ ε)) :
    s.shown (as ++ bs) = s.shown as ++ (s.after as).shown bs := by
  unfold shown
  rw [events_append, List.filterMap_append]

/-- What every action keeps, a run keeps. -/
theorem after_induct {P : Scene size chunk σ φ ε → Prop} (may : Action σ ε → Prop)
    (step : ∀ s a, may a → P s → P (s.act a).2) {s : Scene size chunk σ φ ε}
    {as : List (Action σ ε)} (has : ∀ a ∈ as, may a) (h : P s) : P (s.after as) := by
  induction as generalizing s with
  | nil => exact h
  | cons a as ih =>
    exact ih (fun b hb => has b (List.mem_cons_of_mem a hb)) (step s a (has a List.mem_cons_self) h)

end Scene

end PanelLink
