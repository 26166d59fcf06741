import PanelLink.Proofs.Answering

/-!
What a run can come to. Whatever happens in its pauses, a result that it reaches is as the run
promises, and the answers that a scene gives are results of this kind.
-/
namespace PanelLink

/-! ## Runs -/

namespace Run

variable {ω α β : Type} {R T : Pause → ω → ω → Prop}

/-- The run can end with a result in a world, if pauses end as `R` says. -/
inductive Reaches (R : Pause → ω → ω → Prop) : Run ω α → α → ω → Prop
  | done (a : α) (w : ω) : Reaches R (.done a w) a w
  | resumed {p : Pause} {w w' v : ω} {k : ω → Run ω α} {a : α} :
      R p w w' → Reaches R (k w') a v → Reaches R (.paused p w k) a v

theorem reaches_done {a b : α} {w v : ω} : (done a w).Reaches R b v ↔ b = a ∧ v = w := by
  constructor
  · intro h
    cases h
    exact ⟨rfl, rfl⟩
  · rintro ⟨rfl, rfl⟩
    exact .done b v

/-- What a run promises of its last stretch holds of all that it reaches. -/
theorem Reaches.meets {Q : ω → α → ω → Prop} {r : Run ω α} {a : α} {v w : ω}
    (h : r.Reaches R a w) (hr : r.Meets R T Q v) : ∃ u, Q u a w := by
  induction h generalizing v with
  | done a w => exact ⟨v, hr⟩
  | resumed hw _ ih => exact ih (hr.2 _ hw)

theorem Within.reaches {Q : α → ω → Prop} {r : Run ω α} {n : Nat} {a : α} {w : ω}
    (h : r.Within R Q n) (hr : r.Reaches R a w) : Q a w := by
  induction hr generalizing n with
  | done a w => exact (within_done a w).mp h
  | resumed hw _ ih =>
    cases n with
    | zero => exact h.elim
    | succ n => exact ih (h.2 _ hw)

theorem Reaches.bind {f : α → ω → Run ω β} {r : Run ω α} {a : α} {b : β} {w v : ω}
    (h : r.Reaches R a w) (hf : (f a w).Reaches R b v) : (r.bind f).Reaches R b v := by
  induction h with
  | done a w => exact hf
  | resumed hw _ ih => exact .resumed hw (ih hf)

/-- What comes of two runs one after the other comes of the second, from where the first ends. -/
theorem reaches_bind {f : α → ω → Run ω β} {r : Run ω α} {b : β} {v : ω} :
    (r.bind f).Reaches R b v ↔ ∃ a w, r.Reaches R a w ∧ (f a w).Reaches R b v := by
  constructor
  · intro h
    induction r with
    | done a w => exact ⟨a, w, .done a w, h⟩
    | paused p w k ih =>
      cases h with
      | resumed hw hk =>
        obtain ⟨a, u, ha, hb⟩ := ih _ hk
        exact ⟨a, u, .resumed hw ha, hb⟩
  · rintro ⟨a, w, ha, hb⟩
    exact ha.bind hb

end Run

/-! ## Answers -/

variable {size chunk : Nat} {σ φ δ ε : Type} [FileStore σ φ δ]

namespace Scene

open Device

variable {ok : Aside σ → Prop} {s : Scene size chunk σ φ ε} {r : Request ε} {e : Endpoint chunk φ}
  {p : Pause} {resume : Device size σ φ → Run (Device size σ φ) (Answer ε × Endpoint chunk φ)}
  {answer : Answer ε}

/-- The events of a first action and of those after it. -/
theorem mem_events_cons {a : Action σ ε} {as : List (Action σ ε)} {x : Event ε} :
    x ∈ s.events (a :: as) ↔ x = (s.act a).1 ∨ x ∈ (s.act a).2.events as :=
  List.mem_cons

theorem aside_quiet (x : Aside σ) : (s.act (.aside x)).1 ≠ .answered answer := by
  show ((x.apply s.device).1.elim .quiet .ticked : Event ε) ≠ _
  cases (x.apply s.device).1 <;> simp

structure AnswersLast (s : Scene size chunk σ φ ε) (as : List (Action σ ε)) (qs : List (Event ε))
    (x : Answer ε × Endpoint chunk φ) (w : Device size σ φ) : Prop where
  unanswered (answer : Answer ε) : .answered answer ∉ qs
  events : s.events as = qs ++ [.answered x.1]
  scene : s.after as = ⟨w, .free x.2⟩

namespace AnswersLast

variable {s : Scene size chunk σ φ ε} {a : Action σ ε} {as : List (Action σ ε)}
  {qs : List (Event ε)} {x : Answer ε × Endpoint chunk φ} {w : Device size σ φ}

/-- An action that is answered is the last one. -/
theorem now (h : s.AnswersLast (a :: as) qs x w) {answer : Answer ε}
    (ha : (s.act a).1 = .answered answer) :
    qs = [] ∧ as = [] ∧ x.1 = answer ∧ (s.act a).2 = ⟨w, .free x.2⟩ := by
  have hevents := h.events
  rw [Scene.events, ha] at hevents
  cases qs with
  | nil =>
    obtain ⟨hanswer, hnone⟩ := List.cons.inj hevents
    cases as with
    | nil => exact ⟨rfl, rfl, (Event.answered.inj hanswer).symm, h.scene⟩
    | cons b as => cases hnone
  | cons q qs =>
    obtain ⟨rfl, -⟩ := List.cons.inj hevents
    exact absurd List.mem_cons_self (h.unanswered answer)

/-- An action that is not answered leaves the others. -/
theorem later (h : s.AnswersLast (a :: as) qs x w)
    (ha : ∀ answer, (s.act a).1 ≠ .answered answer) :
    ∃ qs', qs = (s.act a).1 :: qs' ∧ (s.act a).2.AnswersLast as qs' x w := by
  have hevents := h.events
  rw [Scene.events] at hevents
  cases qs with
  | nil => exact absurd (List.cons.inj hevents).1 (ha x.1)
  | cons q qs =>
    obtain ⟨rfl, hrest⟩ := List.cons.inj hevents
    refine ⟨qs, rfl, fun answer hq => ?_, hrest, h.scene⟩
    exact h.unanswered answer (List.mem_cons_of_mem _ hq)

theorem cons (h : (s.act a).2.AnswersLast as qs x w)
    (ha : ∀ answer, (s.act a).1 ≠ .answered answer) :
    s.AnswersLast (a :: as) ((s.act a).1 :: qs) x w where
  unanswered answer hq := by
    obtain hnow | hlater := List.mem_cons.mp hq
    · exact ha answer hnow.symm
    · exact h.unanswered answer hlater
  events := by rw [Scene.events, h.events, List.cons_append]
  scene := h.scene

end AnswersLast

theorem unanswered_of_quiet {q : Event ε} (h : q = .quiet) (answer : Answer ε) :
    q ≠ .answered answer := by
  rw [h]
  simp

/-- What is left after an answer. -/
theorem act_answered {s : Scene size chunk σ φ ε} {a : Action σ ε} {answer : Answer ε}
    (h : (s.act a).1 = .answered answer) : ∃ e w, s.act a = (.answered answer, ⟨w, .free e⟩) := by
  obtain ⟨x, rfl⟩ | ⟨r, e, d, run, hadvances⟩ | ⟨hquiet, -⟩ := s.act_cases a
  · exact absurd h (aside_quiet x)
  · rw [hadvances.act_eq] at h ⊢
    cases run with
    | done x w =>
      obtain rfl : x.1 = answer := Event.answered.inj h
      exact ⟨x.2, w, rfl⟩
    | paused p w k => cases h
  · rw [hquiet] at h
    cases h

/-- If an action is answered, one is the first. -/
theorem answers_first {s : Scene size chunk σ φ ε} {as : List (Action σ ε)} {answer : Answer ε}
    (h : .answered answer ∈ s.events as) :
    ∃ n qs x w, s.AnswersLast (as.take (n + 1)) qs x w := by
  induction as generalizing s with
  | nil => simp [events] at h
  | cons a as ih =>
    by_cases hnow : ∃ answer, (s.act a).1 = .answered answer
    · obtain ⟨answer, ha⟩ := hnow
      obtain ⟨e, w, hact⟩ := act_answered ha
      refine ⟨0, [], (answer, e), w, fun _ => List.not_mem_nil, ?_, ?_⟩
      · rw [List.take_succ_cons, events, hact]
        rfl
      · rw [List.take_succ_cons, after, hact]
        rfl
    · have hquiet (answer) : (s.act a).1 ≠ .answered answer := fun ha => hnow ⟨answer, ha⟩
      have hrest := (mem_events_cons.mp h).resolve_left fun ha => hquiet answer ha.symm
      obtain ⟨n, qs, x, w, hlast⟩ := ih hrest
      exact ⟨n + 1, _, x, w, hlast.cons hquiet⟩

section

variable {a : Action σ ε} {as : List (Action σ ε)} {qs : List (Event ε)}
  {x : Answer ε × Endpoint chunk φ} {d w : Device size σ φ}

/-- What an action that goes on with a run is answered with in the end is what the run reaches, if
this holds after the next pause. -/
theorem AnswersLast.settled {run : Run (Device size σ φ) (Answer ε × Endpoint chunk φ)}
    (hact : s.act a = settle r e run)
    (hwait : ∀ p v k qs, (⟨v, .busy r e p k⟩ : Scene size chunk σ φ ε).AnswersLast as qs x w →
      ∃ u, Resumes ok p v u ∧ (k u).Reaches (Resumes ok) x w)
    (h : s.AnswersLast (a :: as) qs x w) : run.Reaches (Resumes ok) x w := by
  cases run with
  | done y v =>
    have hnow : (s.act a).1 = .answered y.1 := congrArg Prod.fst hact
    obtain ⟨rfl, rfl, hanswer, hscene⟩ := h.now hnow
    rw [hact] at hscene
    obtain ⟨rfl, hfree⟩ := Scene.mk.inj hscene
    obtain rfl : x = y := Prod.ext hanswer (Hand.free.inj hfree).symm
    exact .done x v
  | paused p v k =>
    have hquiet : (s.act a).1 = .quiet := congrArg Prod.fst hact
    obtain ⟨qs', rfl, hlater⟩ := h.later (unanswered_of_quiet hquiet)
    rw [hact] at hlater
    obtain ⟨u, hu, hreached⟩ := hwait p v k qs' hlater
    exact .resumed hu hreached

/-- What a command in hand is answered with is what its run reaches. -/
theorem AnswersLast.resumed
    (h : (⟨d, .busy r e p resume⟩ : Scene size chunk σ φ ε).AnswersLast as qs x w)
    (has : ∀ a ∈ as, a.Waits ok) :
    ∃ u, Resumes ok p d u ∧ (resume u).Reaches (Resumes ok) x w := by
  induction as generalizing d p resume qs with
  | nil =>
    have hevents := h.events
    cases qs <;> cases hevents
  | cons a as ih =>
    have hrest (b) (hb : b ∈ as) : b.Waits ok := has b (List.mem_cons_of_mem a hb)
    have ha : a.Waits ok := has a List.mem_cons_self
    cases a with
    | request r => exact ha.elim
    | aside a =>
      obtain ⟨qs', rfl, hlater⟩ := h.later fun answer => aside_quiet a
      obtain ⟨u, hu, hreached⟩ := ih hlater hrest
      exact ⟨u, .aside a ha hu, hreached⟩
    | resume =>
      rcases harrived : d.arrived p with ⟨_ | _, v⟩
      · have hact := act_look (s := ⟨d, .busy r e p resume⟩) rfl harrived
        have hquiet : (act ⟨d, .busy r e p resume⟩ .resume).1 = .quiet := congrArg Prod.fst hact
        obtain ⟨qs', rfl, hlater⟩ := h.later (unanswered_of_quiet hquiet)
        rw [hact] at hlater
        obtain ⟨u, hu, hreached⟩ := ih hlater hrest
        exact ⟨u, .look harrived hu, hreached⟩
      · have hact := act_resume (s := ⟨d, .busy r e p resume⟩) rfl harrived
        exact ⟨v, .ended harrived, h.settled hact fun _ _ _ _ hlater => ih hlater hrest⟩

/-- What a request is answered with is what its routine reaches. -/
theorem AnswersLast.requested (h : s.AnswersLast (.request r :: as) qs x w) (hs : s.hand = .free e)
    (has : ∀ a ∈ as, a.Waits ok) : (r.routine e s.device).Reaches (Resumes ok) x w :=
  h.settled (act_request hs r) fun _ _ _ _ hlater => hlater.resumed has

end

end Scene

/-! ## Frames -/

/-- Carry out the command of a frame; a frame that is no packet fails as a command. -/
def Handler.handle (frame : Bytes) : Handler size chunk σ φ ε Reply :=
  match Packet.decode frame with
  | .error e => throw (.protocol e)
  | .ok p => execute p

theorem Handler.handle_ok {frame : Bytes} {p : Packet} (h : Packet.decode frame = .ok p) :
    (handle frame : Handler size chunk σ φ ε Reply) = execute p := by
  rw [handle, h]

/-- A frame is served by its command, and then its last reply is sent. -/
theorem Conduct.on_serve_handle {s : Serving chunk φ ε} (hs : s.outbox.failure = none)
    (d : Device size σ φ) (frame : Bytes) :
    (serve frame).on s d =
      (Handler.on (Handler.handle frame) s d).bind fun x d => on (conclude x.1) x.2 d := by
  cases hp : Packet.decode frame with
  | ok p => rw [on_serve s d hp, Handler.handle_ok hp]
  | error c =>
    have hhandle : (Handler.handle frame : Handler size chunk σ φ ε Reply) =
        throw (.protocol c) := by
      rw [Handler.handle, hp]
    rw [hhandle, Handler.on_throw, Run.done_bind, on_conclude, hs, serve, hp]

/-- A quick transport takes the last reply, or refuses it, at once. -/
theorem Conduct.on_conclude_quick {s : Serving chunk φ ε} (hs : s.outbox.failure = none)
    (hquick : s.outbox.transport.slow = false) (d : Device size σ φ)
    (x : Except CommandError Reply) :
    (conclude x).on s d =
      .done ((s.outbox.post (finalReply x)).2.failure.elim (.ok (finalReply x).status) .error,
        { s with outbox := (s.outbox.post (finalReply x)).2 }) d := by
  rw [on_conclude, hs]
  dsimp only
  rw [on_finish, on_post, hquick, Bool.and_false, if_neg Bool.false_ne_true]
  rfl

end PanelLink
