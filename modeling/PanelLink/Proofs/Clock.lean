import PanelLink.Proofs.Soundness
import PanelLink.Proofs.Unseen

/-!
The clock is set and kept, and nothing is made of it: what a device says and does is the same
whatever time it was told.
-/
namespace PanelLink

variable {size chunk : Nat} {σ φ δ ε α : Type}

def Endpoint.atTime (k : Option TimeOfDay) (e : Endpoint chunk φ) : Endpoint chunk φ :=
  { e with clock := k }

def Serving.atTime (k : Option TimeOfDay) (s : Serving chunk φ ε) : Serving chunk φ ε :=
  { s with endpoint := s.endpoint.atTime k }

theorem Serving.atTime_unsent (k : Option TimeOfDay) :
    Unsent (atTime k : Serving chunk φ ε → Serving chunk φ ε) := by
  constructor
  · constructor <;> intros <;> rfl
  · intros
    rfl
  · intros
    rfl

def Run.atTime {ω : Type} (k : Option TimeOfDay) (r : Run ω (α × Endpoint chunk φ)) :
    Run ω (α × Endpoint chunk φ) :=
  r.bind fun x w => .done (x.1, x.2.atTime k) w

namespace Conduct.Blind

variable {g : Serving chunk φ ε → Serving chunk φ ε}

theorem finish (hg : Unsent g) (reply : Reply) :
    Blind g (Conduct.finish reply : Conduct size chunk σ φ ε (Except ε Status)) := by
  intro s d
  have hpost : Blind g (Conduct.post reply : Conduct size chunk σ φ ε Bool) := post hg reply
  rw [on_finish, on_finish, hpost s d, Run.bind_bind, Run.bind_bind]
  simp only [Run.done_bind, hg.outbox]

theorem conclude (hg : Unsent g) (result : Except CommandError Reply) :
    Blind g (Conduct.conclude result : Conduct size chunk σ φ ε (Except ε Status)) := by
  intro s d
  rw [on_conclude, on_conclude, hg.outbox]
  cases s.outbox.failure with
  | some x => rfl
  | none => exact finish hg _ s d

end Conduct.Blind

private theorem Handler.setTime_atTime (payload : Bytes) (k : Option TimeOfDay) : ∃ k', ∀ s d,
    on (setTime payload : Handler size chunk σ φ ε Reply) (s.atTime k) d =
      (on (setTime payload) s d).bind fun x w => .done (x.1, x.2.atTime k') w := by
  simp only [on_setTime]
  split
  · split
    · exact ⟨k, fun _ _ => rfl⟩
    · exact ⟨some _, fun _ _ => rfl⟩
  · exact ⟨k, fun _ _ => rfl⟩

variable [FileStore σ φ δ]

/-- A command does the same at any time. -/
theorem Handler.execute_atTime (p : Packet) (k : Option TimeOfDay) : ∃ k', ∀ s d,
    on (execute p : Handler size chunk σ φ ε Reply) (s.atTime k) d =
      (on (execute p) s d).bind fun x w => .done (x.1, x.2.atTime k') w := by
  -- The time before matters to no command, but only this one does not pass it on.
  by_cases htime : p.command = .setTime
  · have hexecute : (execute p : Handler size chunk σ φ ε Reply) = setTime p.payload := by
      unfold execute
      rw [htime]
    rw [hexecute]
    exact setTime_atTime p.payload k
  · have hk : Unsent (Serving.atTime k : Serving chunk φ ε → Serving chunk φ ε) :=
      Serving.atTime_unsent k
    exact ⟨k, hk.toUnseen.execute p (fun _ => hk) fun h => absurd h htime⟩

private theorem Conduct.serve_atTime (frame : Bytes) (k : Option TimeOfDay) : ∃ k', ∀ s d,
    (serve frame : Conduct size chunk σ φ ε _).on (s.atTime k) d =
      ((serve frame).on s d).bind fun x w => .done (x.1, x.2.atTime k') w := by
  cases hp : Packet.decode frame with
  | error c =>
    have hserve : (serve frame : Conduct size chunk σ φ ε _) =
        finish (finalReply (.error (.protocol c))) := by
      rw [serve, hp]
    rw [hserve]
    exact ⟨k, Blind.finish (Serving.atTime_unsent k) _⟩
  | ok p =>
    obtain ⟨k', hk'⟩ := @Handler.execute_atTime size chunk σ φ δ ε _ p k
    refine ⟨k', fun s d => ?_⟩
    have hconclude (x : Except CommandError Reply) :
        Blind (Serving.atTime k') (conclude x : Conduct size chunk σ φ ε _) :=
      .conclude (Serving.atTime_unsent k') x
    have hrest (x : Except CommandError Reply × Serving chunk φ ε) (w : Device size σ φ) :=
      hconclude x.1 x.2 w
    rw [on_serve _ _ hp, on_serve _ _ hp, hk', Run.bind_bind, Run.bind_bind]
    simp only [Run.done_bind, hrest]

theorem Request.routine_atTime (r : Request ε) (e : Endpoint chunk φ) (k : Option TimeOfDay) :
    ∃ k', ∀ d : Device size σ φ, r.routine (e.atTime k) d = (r.routine e d).atTime k' := by
  cases r with
  | frame transport bytes =>
    obtain ⟨k', hk'⟩ := @Conduct.serve_atTime size chunk σ φ δ ε _ bytes k
    refine ⟨k', fun d => ?_⟩
    have hserve := hk' ⟨e, .empty transport⟩ d
    rw [Run.atTime, routine_frame, routine_frame, Run.bind_bind]
    show ((Conduct.serve bytes).on (Serving.atTime k ⟨e, .empty transport⟩) d).bind _ = _
    rw [hserve, Run.bind_bind]
    rfl
  | stop =>
    refine ⟨k, fun d => ?_⟩
    rw [Run.atTime, routine_stop, routine_stop, Run.bind_bind]
    rfl
  | start path =>
    refine ⟨k, fun d => ?_⟩
    rw [Run.atTime, routine_start, routine_start, Run.bind_bind]
    rfl
  | showStill path =>
    refine ⟨k, fun d => ?_⟩
    rw [Run.atTime, routine_showStill, routine_showStill, Run.bind_bind]
    rfl
  | loadConfig => exact ⟨k, fun _ => rfl⟩

/-! ## Scenes -/

/-- The same endpoint at two times, or the same command in hand. -/
inductive Hand.Timeless : Hand size chunk σ φ ε → Hand size chunk σ φ ε → Prop
  | free (e : Endpoint chunk φ) (k : Option TimeOfDay) : Timeless (.free e) (.free (e.atTime k))
  | busy (r : Request ε) (e e' : Endpoint chunk φ) (p : Pause)
      (resume : Device size σ φ → Run (Device size σ φ) (Answer ε × Endpoint chunk φ))
      (k : Option TimeOfDay) :
      Timeless (.busy r e p resume) (.busy r e' p fun d => (resume d).atTime k)

namespace Scene

omit [FileStore σ φ δ] in
private theorem settle_timeless (r : Request ε) (e e' : Endpoint chunk φ) (k : Option TimeOfDay)
    (run : Run (Device size σ φ) (Answer ε × Endpoint chunk φ)) :
    (settle r e run).1 = (settle r e' (run.atTime k)).1 ∧
      (settle r e run).2.device = (settle r e' (run.atTime k)).2.device ∧
      (settle r e run).2.hand.Timeless (settle r e' (run.atTime k)).2.hand := by
  cases run with
  | done x w => exact ⟨rfl, rfl, .free x.2 k⟩
  | paused p w resume => exact ⟨rfl, rfl, .busy r e e' p resume k⟩

private theorem act_timeless {d : Device size σ φ} {h h' : Hand size chunk σ φ ε}
    (hh : h.Timeless h')
    (a : Action σ ε) :
    (act ⟨d, h⟩ a).1 = (act ⟨d, h'⟩ a).1 ∧
      (act ⟨d, h⟩ a).2.device = (act ⟨d, h'⟩ a).2.device ∧
      (act ⟨d, h⟩ a).2.hand.Timeless (act ⟨d, h'⟩ a).2.hand := by
  cases a with
  | aside x => exact ⟨rfl, rfl, hh⟩
  | request r =>
    cases hh with
    | free e k =>
      obtain ⟨k', hk'⟩ := @Request.routine_atTime size chunk σ φ δ ε _ r e k
      have hact := act_request (s := ⟨d, .free e⟩) rfl r
      have hact' := act_request (s := ⟨d, .free (e.atTime k)⟩) rfl r
      rw [hact, hact', hk']
      exact settle_timeless r e (e.atTime k) k' (r.routine e d)
    | busy r' e e' p resume k => exact ⟨rfl, rfl, .busy r' e e' p resume k⟩
  | resume =>
    cases hh with
    | free e k => exact ⟨rfl, rfl, .free e k⟩
    | busy r e e' p resume k =>
      rcases hd : d.arrived p with ⟨_ | _, w⟩
      · have hact := act_look (s := ⟨d, .busy r e p resume⟩) rfl hd
        have hact' := act_look (s := ⟨d, .busy r e' p fun d => (resume d).atTime k⟩) rfl hd
        rw [hact, hact']
        exact ⟨rfl, rfl, .busy r e e' p resume k⟩
      · have hact := act_resume (s := ⟨d, .busy r e p resume⟩) rfl hd
        have hact' := act_resume (s := ⟨d, .busy r e' p fun d => (resume d).atTime k⟩) rfl hd
        rw [hact, hact']
        exact settle_timeless r e e' k (resume w)

/-- Nothing is made of the clock: a scene at another time says the same in every run, and its device
comes to the same. -/
theorem timeless {s t : Scene size chunk σ φ ε} (hdevice : s.device = t.device)
    (hhand : s.hand.Timeless t.hand) (as : List (Action σ ε)) :
    s.events as = t.events as ∧ (s.after as).device = (t.after as).device := by
  induction as generalizing s t with
  | nil => exact ⟨rfl, hdevice⟩
  | cons a as ih =>
    obtain ⟨d, h⟩ := s
    obtain ⟨d', h'⟩ := t
    obtain rfl : d = d' := hdevice
    obtain ⟨hevent, hdevice, hnext⟩ := act_timeless (d := d) hhand a
    obtain ⟨hevents, hafter⟩ := ih hdevice hnext
    rw [events, events, hevent, hevents]
    exact ⟨rfl, hafter⟩

end Scene

end PanelLink
