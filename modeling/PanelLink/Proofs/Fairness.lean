import PanelLink.Proofs.Dismissal
import PanelLink.Proofs.Orderly
import PanelLink.Proofs.Reaching

/-!
Schedules that never end. If the command in hand and the loader have their turns again and again,
every frame is answered, whatever else goes on: a delivery is over when it is looked after, and the
loader leaves when it was told to.
-/
namespace PanelLink

open Device

variable {size chunk : Nat} {σ φ δ ε : Type}

/-- A schedule without requests, in which the command in hand and the loader always get another
turn. -/
structure Fair (f : Nat → Action σ ε) : Prop where
  waits (n : Nat) : (f n).Waits fun _ => True
  looks (n : Nat) : ∃ m, f (n + m) = .resume
  polls (n : Nat) : ∃ m, f (n + m) = .aside .poll

def onward (f : Nat → Action σ ε) : Nat → Action σ ε :=
  fun n => f (n + 1)

theorem Fair.onward {f : Nat → Action σ ε} (h : Fair f) : Fair (onward f) := by
  have hshift (n m : Nat) : PanelLink.onward f (n + m) = f (n + 1 + m) :=
    congrArg f (Nat.add_right_comm n m 1)
  constructor
  · exact fun n => h.waits (n + 1)
  · intro n
    obtain ⟨m, hm⟩ := h.looks (n + 1)
    exact ⟨m, (hshift n m).trans hm⟩
  · intro n
    obtain ⟨m, hm⟩ := h.polls (n + 1)
    exact ⟨m, (hshift n m).trans hm⟩

variable [FileStore σ φ δ]

/-- The wait comes to an end: it is for a delivery, or the loader is about to leave. -/
def Device.Passing (p : Pause) (d : Device size σ φ) : Prop :=
  p = .acknowledgement → ∃ n, Leaving n d

namespace Scene

variable {s : Scene size chunk σ φ ε} {r : Request ε} {e : Endpoint chunk φ} {p : Pause}
  {resume : Device size σ φ → Run (Device size σ φ) (Answer ε × Endpoint chunk φ)}
  {f : Nat → Action σ ε}

/-- The command in hand is answered after some of the actions. -/
def Answered (s : Scene size chunk σ φ ε) (f : Nat → Action σ ε) : Prop :=
  ∃ n answer, .answered answer ∈ s.events ((List.range n).map f)

private theorem events_first (s : Scene size chunk σ φ ε) (f : Nat → Action σ ε) (n : Nat) :
    s.events ((List.range (n + 1)).map f) =
      (s.act (f 0)).1 :: (s.act (f 0)).2.events ((List.range n).map (onward f)) := by
  rw [List.range_succ_eq_map, List.map_cons, List.map_map]
  rfl

theorem answered_now {answer : Answer ε} (h : (s.act (f 0)).1 = .answered answer) :
    s.Answered f := by
  refine ⟨1, answer, ?_⟩
  rw [events_first, h]
  exact List.mem_cons_self

theorem answered_later (h : (s.act (f 0)).2.Answered (onward f)) : s.Answered f := by
  obtain ⟨n, answer, hmem⟩ := h
  refine ⟨n + 1, answer, ?_⟩
  rw [events_first]
  exact List.mem_cons_of_mem _ hmem

/-- With every action a wait for the loader comes closer to its end, or keeps its distance; a poll
does bring it closer. -/
theorem leaving_step {n : Nat} (hs : s.hand = .busy r e .acknowledgement resume)
    (hd : Leaving n s.device) (ha : (f 0).Waits fun _ => True) :
    (f 0 = .resume ∧ (s.device.arrived .acknowledgement).1 = true) ∨
      ((s.act (f 0)).2.hand = s.hand ∧ Leaving n (s.act (f 0)).2.device ∧
        (f 0 = .aside .poll → Leaving (n - 1) (s.act (f 0)).2.device) ∧
        (∀ d, Resumes (fun _ => True) .acknowledgement (s.act (f 0)).2.device d →
          Resumes (fun _ => True) .acknowledgement s.device d)) := by
  cases h : f 0 with
  | request r' =>
    rw [h] at ha
    exact ha.elim
  | resume =>
    obtain harrived | hsame := hd.look
    · exact .inl ⟨rfl, harrived⟩
    · have hact : (s.act .resume).2 = s := by rw [act_look hs hsame]
      rw [hact]
      exact .inr ⟨rfl, hd, nofun, fun _ hw => hw⟩
  | aside x =>
    have hkeep (d) (hw : Resumes (fun _ => True) .acknowledgement (x.apply s.device).2 d) :
        Resumes (fun _ => True) .acknowledgement s.device d := .aside x trivial hw
    by_cases hx : x = .poll
    · subst hx
      have hnear : Leaving (n - 1) (s.act (.aside .poll)).2.device := hd.poll
      have hstill : Leaving n (s.act (.aside .poll)).2.device := by
        obtain ⟨hc, hp, hh, hfar, hheard⟩ := hnear
        exact ⟨hc, hp, hh, fun ha => Nat.le_trans (hfar ha) (Nat.sub_le n 1), hheard⟩
      exact .inr ⟨rfl, hstill, fun _ => hnear, hkeep⟩
    · refine .inr ⟨rfl, hd.beside hx, fun hpoll => ?_, hkeep⟩
      exact absurd (Action.aside.inj hpoll) hx

structure Awaits (s : Scene size chunk σ φ ε) (r : Request ε) (e : Endpoint chunk φ) (p : Pause)
    (resume : Device size σ φ → Run (Device size σ φ) (Answer ε × Endpoint chunk φ)) : Prop where
  hand : s.hand = .busy r e p resume
  meets (d : Device size σ φ) : Resumes (fun _ => True) p s.device d →
    (resume d).Meets (Resumes fun _ => True) (fun p _ w => Passing p w) (fun _ _ _ => True) d

/-- If the command is answered whenever it goes on after a delivery, it is answered. -/
theorem Awaits.delivered (h : s.Awaits r e .delivery resume) (hf : Fair f)
    (hgo : ∀ (s : Scene size chunk σ φ ε) f, s.Awaits r e .delivery resume → Fair f →
      f 0 = .resume → s.Answered f) : s.Answered f := by
  obtain ⟨m, hm⟩ := hf.looks 0
  induction m generalizing s f with
  | zero => exact hgo s f h hf hm
  | succ m ih =>
    have hwaits := hf.waits 0
    cases ha : f 0 with
    | request r' =>
      rw [ha] at hwaits
      exact hwaits.elim
    | resume => exact hgo s f h hf ha
    | aside x =>
      apply answered_later
      rw [ha]
      refine ih ⟨h.hand, fun d hd => h.meets d (.aside x trivial hd)⟩ hf.onward ?_
      rwa [Nat.zero_add] at hm ⊢

/-- If the command is answered whenever it goes on after the loader has left, it is answered. -/
theorem Awaits.dismissed {n : Nat} (h : s.Awaits r e .acknowledgement resume) (hf : Fair f)
    (hd : Leaving n s.device)
    (hgo : ∀ (s : Scene size chunk σ φ ε) f, s.Awaits r e .acknowledgement resume → Fair f →
      f 0 = .resume → (s.device.arrived .acknowledgement).1 = true → s.Answered f) :
    s.Answered f := by
  -- First the polls that the loader needs, then the look that finds it gone.
  induction n generalizing s f with
  | zero =>
    obtain ⟨m, hm⟩ := hf.looks 0
    induction m generalizing s f with
    | zero => exact hgo s f h hf hm hd.arrives
    | succ m ih =>
      obtain ⟨hlook, harrived⟩ | ⟨hhand, hstill, -, hkeep⟩ := leaving_step h.hand hd (hf.waits 0)
      · exact hgo s f h hf hlook harrived
      · apply answered_later
        refine ih ⟨hhand.trans h.hand, fun d hw => h.meets d (hkeep d hw)⟩ hf.onward hstill ?_
        rwa [Nat.zero_add] at hm ⊢
  | succ n ihn =>
    obtain ⟨m, hm⟩ := hf.polls 0
    induction m generalizing s f with
    | zero =>
      obtain ⟨hlook, harrived⟩ | ⟨hhand, -, hnear, hkeep⟩ := leaving_step h.hand hd (hf.waits 0)
      · exact hgo s f h hf hlook harrived
      · apply answered_later
        exact ihn ⟨hhand.trans h.hand, fun d hw => h.meets d (hkeep d hw)⟩ hf.onward (hnear hm)
    | succ m ih =>
      obtain ⟨hlook, harrived⟩ | ⟨hhand, hstill, -, hkeep⟩ := leaving_step h.hand hd (hf.waits 0)
      · exact hgo s f h hf hlook harrived
      · apply answered_later
        refine ih ⟨hhand.trans h.hand, fun d hw => h.meets d (hkeep d hw)⟩ hf.onward hstill ?_
        rwa [Nat.zero_add] at hm ⊢

/-- A command is answered if each of its waits comes to an end. -/
theorem answered_run (run : Run (Device size σ φ) (Answer ε × Endpoint chunk φ))
    {v : Device size σ φ} (hrun : run.Meets (Resumes fun _ => True) (fun p _ w => Passing p w)
      (fun _ _ _ => True) v) (hf : Fair f) :
    (∃ answer, (settle r e run).1 = .answered answer) ∨ (settle r e run).2.Answered f := by
  -- On the run: what is left of it after a pause is answered at once, or by the hypothesis.
  induction run generalizing v f with
  | done x w => exact .inl ⟨x.1, rfl⟩
  | paused p w resume ih =>
    obtain ⟨hpassing, hmeets⟩ := hrun
    have hgo (s : Scene size chunk σ φ ε) (f : Nat → Action σ ε) (h : s.Awaits r e p resume)
        (hf : Fair f) (hlook : f 0 = .resume) (harrived : (s.device.arrived p).1 = true) :
        s.Answered f := by
      have harr : s.device.arrived p = (true, (s.device.arrived p).2) := Prod.ext harrived rfl
      have hact : s.act (f 0) = settle r e (resume (s.device.arrived p).2) := by
        rw [hlook, act_resume h.hand harr]
      obtain ⟨answer, hnow⟩ | hlater := ih _ (h.meets _ (.ended harr)) hf.onward
      · exact answered_now (hact ▸ hnow)
      · apply answered_later
        rwa [hact]
    have hawaits : (settle r e (.paused p w resume)).2.Awaits r e p resume := ⟨rfl, hmeets⟩
    right
    cases p with
    | delivery => exact hawaits.delivered hf fun s f h hf hlook => hgo s f h hf hlook rfl
    | acknowledgement =>
      obtain ⟨n, hleaving⟩ := hpassing rfl
      exact hawaits.dismissed hf hleaving hgo

theorem answered_request (hs : s.hand = .free e)
    (hr : (r.routine e s.device).Meets (Resumes fun _ => True) (fun p _ w => Passing p w)
      (fun _ _ _ => True) s.device) (hf : Fair f) :
    ∃ n answer, .answered answer ∈ s.events (.request r :: (List.range n).map f) := by
  have hcons (n : Nat) : s.events (.request r :: (List.range n).map f) =
      (settle r e (r.routine e s.device)).1 ::
        (settle r e (r.routine e s.device)).2.events ((List.range n).map f) := by
    rw [events, act_request hs]
  obtain ⟨answer, hnow⟩ | ⟨n, answer, hlater⟩ := answered_run (r := r) (e := e) _ hr hf
  · refine ⟨0, answer, ?_⟩
    rw [hcons, hnow]
    exact List.mem_cons_self
  · refine ⟨n, answer, ?_⟩
    rw [hcons]
    exact List.mem_cons_of_mem _ hlater

end Scene

/-! ## Frames -/

namespace Run

variable {ω α β : Type} {R : Pause → ω → ω → Prop} {P : ω → Prop} {Q : α → Prop}

theorem Dismisses.meets {r : Run ω α} (h : r.Dismisses P Q) (v : ω) :
    r.Meets R (fun p _ w => p = .acknowledgement → P w) (fun _ a _ => Q a) v := by
  cases r with
  | done a w => exact h
  | paused p w k =>
    obtain ⟨-, hw, hk⟩ := h
    refine ⟨fun _ => hw, fun w' _ => ?_⟩
    obtain ⟨a, u, hrun, ha⟩ := hk w'
    rw [hrun]
    exact ha

end Run

namespace Handler

variable {s : Serving chunk φ ε} {d : Device size σ φ}

/-- Each wait of a command comes to an end, if it begins while nobody holds the store. -/
theorem execute_passing (hc : d.Coherent) (hh : d.held = false) (p : Packet) (v : Device size σ φ) :
    (on (execute p) s d).Meets (Resumes fun _ => True) (fun p _ w => Passing p w)
      (fun _ _ _ => True) v := by
  have htrivial : KeptByPlain (Resumes fun _ => True) (fun p _ w => Passing p w)
      (fun _ _ _ _ => True : CommandHandle φ δ → Assertion size chunk σ φ ε) := by
    constructor
    case create =>
      intro v s d path _
      split <;> trivial
    case toKeptByReading =>
      constructor
      case pause => exact fun _ _ => ⟨nofun, fun _ _ => trivial⟩
      case openFile | openDir =>
        intro v s d path _
        split <;> trivial
      all_goals intros; trivial
    all_goals intros; trivial
  have hfree : PanelLink.Free (fun _ _ _ => True : Assertion size chunk σ φ ε) :=
    fun _ _ _ _ _ _ _ => trivial
  have hleaving {α : Type} {Q : α → Prop} {r : Run (Device size σ φ) α}
      (h : r.Dismisses (Leaving 2) Q) :
      r.Meets (Resumes fun _ => True) (fun p _ w => Passing p w) (fun _ _ _ => True) v :=
    ((h.meets v).mono fun _ _ _ hw hp => ⟨2, hw hp⟩).imp fun _ _ _ _ => trivial
  have hkeeps {h : Handler size chunk σ φ ε Reply}
      (hk : Keeps (Resumes fun _ => True) (fun p _ w => Passing p w) (fun _ _ _ => True) h) :
      (on h s d).Meets (Resumes fun _ => True) (fun p _ w => Passing p w) (fun _ _ _ => True) v :=
    (hk v s d trivial).imp fun _ _ _ _ => trivial
  by_cases hplain : p.command.plain = true
  · exact hkeeps (htrivial.plain p hplain)
  by_cases hbrief : p.command.brief = true
  · exact hkeeps (hfree.brief p hbrief)
  unfold execute
  cases hcommand : p.command with
  | format => exact hleaving (format_dismisses hc hh)
  | chooseImage => exact hleaving (chooseImage_dismisses hc hh _)
  | writeDisplay => exact hleaving (writeDisplay_dismisses hc hh _)
  | _ => simp [Command.plain, Command.brief, hcommand] at hplain hbrief

end Handler

private theorem Conduct.conclude_passing (s : Serving chunk φ ε) (v d : Device size σ φ)
    (x : Except CommandError Reply) :
    (on (conclude x) s d).Meets (Resumes fun _ => True) (fun p _ w => Passing p w)
      (fun _ _ _ => True) v := by
  rw [on_conclude]
  split
  · trivial
  · rw [on_finish, on_post]
    split
    · exact ⟨nofun, fun _ _ => trivial⟩
    · trivial

theorem Request.frame_passing {e : Endpoint chunk φ} {d : Device size σ φ} (hc : d.Coherent)
    (hh : d.held = false) (transport : Transport ε) (bytes : Bytes) :
    ((Request.frame transport bytes).routine e d).Meets (Resumes fun _ => True)
      (fun p _ w => Passing p w) (fun _ _ _ => True) d := by
  have hhandle : (Handler.on (Handler.handle bytes) ⟨e, .empty transport⟩ d).Meets
      (Resumes fun _ => True) (fun p _ w => Passing p w) (fun _ _ _ => True) d := by
    unfold Handler.handle
    split
    · trivial
    · exact Handler.execute_passing hc hh _ d
  rw [Request.routine_frame, Conduct.on_serve_handle rfl, Run.bind_bind, Run.meets_bind]
  refine hhandle.imp fun v x w _ => ?_
  rw [Run.meets_bind]
  exact (Conduct.conclude_passing x.2 v w x.1).imp fun _ _ _ _ => trivial

end PanelLink
