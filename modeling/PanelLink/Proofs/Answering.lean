import PanelLink.Proofs.Custody
import PanelLink.Proofs.Sending
import PanelLink.Proofs.Verdict

/-!
How the host gets to know what a command came to. A command that has only deliveries to wait for
answers as soon as it was looked after often enough; a command of an upload has at most its last
reply to wait for.
-/
namespace PanelLink

open Device

variable {size chunk : Nat} {σ φ δ ε : Type}

/-- The action is an aside that `ok` allows, or a look after the command in hand. -/
def Action.Waits (ok : Aside σ → Prop) : Action σ ε → Prop
  | .aside a => ok a
  | .request _ => False
  | .resume => True

/-- How often the command in hand is looked after. -/
def looks : List (Action σ ε) → Nat
  | [] => 0
  | .resume :: as => looks as + 1
  | _ :: as => looks as

variable [FileStore σ φ δ] {ok : Aside σ → Prop} {s : Scene size chunk σ φ ε}

namespace Scene

/-! ## Answers in time -/

/-- A command that has so many deliveries to wait for answers when it was looked after as often. -/
theorem answers_within {Q : Answer ε × Endpoint chunk φ → Device size σ φ → Prop} {r : Request ε}
    {e : Endpoint chunk φ} {n : Nat}
    {resume : Device size σ φ → Run (Device size σ φ) (Answer ε × Endpoint chunk φ)}
    (hhand : s.hand = .busy r e .delivery resume)
    (hresume : ∀ d, Resumes ok .delivery s.device d → (resume d).Within (Resumes ok) Q n)
    {as : List (Action σ ε)} (has : ∀ a ∈ as, a.Waits ok) (hlooks : n < looks as) :
    ∃ x w, Q x w ∧ .answered x.1 ∈ s.events as := by
  induction as generalizing s n resume with
  | nil => simp [looks] at hlooks
  | cons a as ih =>
    have hrest (b) (hb : b ∈ as) : b.Waits ok := has b (List.mem_cons_of_mem a hb)
    have ha : a.Waits ok := has a List.mem_cons_self
    cases a with
    | request r => exact ha.elim
    | aside x =>
      have hkeep (d) (hd : Resumes ok .delivery (x.apply s.device).2 d) :
          (resume d).Within (Resumes ok) Q n :=
        hresume d (.aside x ha hd)
      obtain ⟨y, w, hQ, hmem⟩ := ih (s := (s.act (.aside x)).2) hhand hkeep hrest hlooks
      exact ⟨y, w, hQ, List.mem_cons_of_mem _ hmem⟩
    | resume =>
      have hact : s.act .resume = settle r e (resume s.device) := act_resume hhand rfl
      have hnow := hresume s.device (.ended rfl)
      show ∃ x w, Q x w ∧ .answered x.1 ∈ (s.act .resume).1 :: (s.act .resume).2.events as
      rw [hact]
      cases hrun : resume s.device with
      | done x w =>
        rw [hrun, Run.within_done] at hnow
        exact ⟨x, w, hnow, List.mem_cons_self⟩
      | paused p w k =>
        rw [hrun] at hnow
        cases n with
        | zero => exact hnow.elim
        | succ n =>
          obtain ⟨rfl, hk⟩ := hnow
          have hleft : n < looks as := Nat.lt_of_succ_lt_succ hlooks
          obtain ⟨y, w', hQ, hmem⟩ :=
            ih (s := (settle r e (.paused .delivery w k)).2) rfl hk hrest hleft
          exact ⟨y, w', hQ, List.mem_cons_of_mem _ hmem⟩

theorem request_within {Q : Answer ε × Endpoint chunk φ → Device size σ φ → Prop} {r : Request ε}
    {e : Endpoint chunk φ} {n : Nat} (hhand : s.hand = .free e)
    (hrun : (r.routine e s.device).Within (Resumes ok) Q n)
    {as : List (Action σ ε)} (has : ∀ a ∈ as, a.Waits ok) (hlooks : n ≤ looks as) :
    ∃ x w, Q x w ∧ .answered x.1 ∈ s.events (.request r :: as) := by
  show ∃ x w, Q x w ∧ .answered x.1 ∈ (s.act (.request r)).1 :: (s.act (.request r)).2.events as
  rw [act_request hhand]
  cases hr : r.routine e s.device with
  | done x w =>
    rw [hr, Run.within_done] at hrun
    exact ⟨x, w, hrun, List.mem_cons_self⟩
  | paused p w k =>
    rw [hr] at hrun
    cases n with
    | zero => exact hrun.elim
    | succ n =>
      obtain ⟨rfl, hk⟩ := hrun
      obtain ⟨y, w', hQ, hmem⟩ :=
        answers_within (s := (settle r e (.paused .delivery w k)).2) rfl hk has hlooks
      exact ⟨y, w', hQ, List.mem_cons_of_mem _ hmem⟩

/-! ## The answer to a command of an upload -/

/-- The action is answered at once, or as soon as the delivery of its reply is over. -/
def Answers (s : Scene size chunk σ φ ε) (a : Action σ ε) (answer : Answer ε) : Prop :=
  (s.act a).1 = .answered answer ∨
    ∃ r e e', (s.act a).2.hand = .busy r e .delivery (.done (answer, e'))

/-- No command is in hand, or one whose answer is known. -/
def Concluded (s : Scene size chunk σ φ ε) : Prop :=
  ∀ r e p resume, s.hand = .busy r e p resume → ∃ x, resume = .done x

variable {a : Action σ ε} {e e' : Endpoint chunk φ} {d' : Device size σ φ} {p : Packet}
  {result : Except CommandError Reply}

omit [FileStore σ φ δ] in
private theorem concluded_of_free (h : s.hand = .free e) : s.Concluded := by
  intro r e' p resume hbusy
  rw [h] at hbusy
  cases hbusy

theorem Hears.answers (h : s.Hears a e p) (hy : e.Yields s.device p result e' d') :
    (s.act a).2.Concluded ∧ ∃ answer replies, s.Answers a (.served answer replies) ∧
      (answer = .ok (finalReply result).status ∨ ∃ x, answer = .error x) := by
  obtain ⟨transport, bytes, hp, hact⟩ := h.act_eq
  unfold Answers
  rw [hact]
  obtain ⟨answer, replies, hanswer, hrun | hrun⟩ := hy.routine_cases transport hp
  · rw [hrun]
    exact ⟨concluded_of_free rfl, answer, replies, .inl rfl, hanswer⟩
  · rw [hrun]
    refine ⟨?_, answer, replies, .inr ⟨_, _, _, rfl⟩, hanswer⟩
    rintro r e p resume ⟨⟩
    exact ⟨_, rfl⟩

/-- While nothing is asked for, what the loader keeps is kept, and no more than an answer comes. -/
theorem Concluded.act {K : Custody σ φ δ} (hK : K.Reading)
    (hok : ∀ change s, ok (.alter change) → K.store s → K.Carries s (change s))
    (h : s.Concluded) (hd : s.device.Under K) (ha : a.Waits ok) :
    (s.act a).2.Concluded ∧ (s.act a).2.device.Under K := by
  cases a with
  | request r => exact ha.elim
  | aside x =>
    have hmoves : Moves K s.device (x.apply s.device).2 := by
      apply hK.aside hd
      rintro change rfl
      exact hok change s.device.store ha hd.store
    exact ⟨h, hmoves.under⟩
  | resume =>
    cases hs : s.hand with
    | free e =>
      rw [act_resume_free hs]
      exact ⟨h, hd⟩
    | busy r e p resume =>
      obtain ⟨x, rfl⟩ := h r e p resume hs
      have hlook := (hK.look hd p).under
      rcases harr : s.device.arrived p with ⟨_ | _, d⟩
      · rw [harr] at hlook
        rw [act_look hs harr]
        exact ⟨h, hlook⟩
      · rw [harr] at hlook
        rw [act_resume hs harr]
        exact ⟨concluded_of_free rfl, hlook⟩

theorem Concluded.after {K : Custody σ φ δ} (hK : K.Reading)
    (hok : ∀ change s, ok (.alter change) → K.store s → K.Carries s (change s))
    (h : s.Concluded) (hd : s.device.Under K) {as : List (Action σ ε)}
    (has : ∀ a ∈ as, a.Waits ok) : (s.after as).device.Under K := by
  have hboth := after_induct (P := fun s => s.Concluded ∧ s.device.Under K) (Action.Waits ok)
    (fun s a ha h => h.1.act hK hok h.2 ha) has ⟨h, hd⟩
  exact hboth.2

end Scene

theorem CommandError.status_ne_success (x : CommandError) : x.status ≠ .success := by
  cases x with
  | storage e => cases e <;> simp [status, StorageError.status]
  | _ => simp [status]

section

variable {e : Endpoint chunk φ} {d : Device size σ φ} {p : Packet}

theorem error_ne_ok {x : CommandError} {r : Reply} {P : Prop}
    (h : (.error x : Except CommandError Reply) = .ok r) : P := by
  cases h

theorem exists_yields_openFile (hc : p.command = .openFile) :
    ∃ result e' d', e.Yields d p result e' d' ∧ ∀ r, result = .ok r → r = Handler.done := by
  cases hp : e.pathOf p.payload with
  | error x =>
    refine ⟨.error (.validation x), e, d, fun ε o => ?_, fun _ => error_ne_ok⟩
    simp only [Handler.execute, hc, Handler.on_openFile, hp]
  | ok path =>
    cases hu : e.upload with
    | some w =>
      obtain ⟨x, hy⟩ := yields_openFile_again (d := d) hc hu
      exact ⟨_, _, _, hy, fun _ => error_ne_ok⟩
    | none =>
      rcases ho : FileStore.openFile d.store path .appending with ⟨x | f, t⟩
      · exact ⟨_, _, _, yields_openFile_failed hc hp hu ho, fun _ => error_ne_ok⟩
      · exact ⟨_, _, _, yields_openFile hc hp hu ho, fun r hr => (Except.ok.inj hr).symm⟩

private theorem exists_yields_writeFile (hc : p.command = .writeFile) :
    ∃ result e' d', e.Yields d p result e' d' ∧ ∀ r, result = .ok r → r = Handler.done := by
  by_cases hp : p.payload = []
  · exact ⟨_, _, _, yields_writeFile_nothing hc hp, fun _ => error_ne_ok⟩
  cases hu : e.upload with
  | none =>
    refine ⟨.error .notOpen, e, d, fun ε o => ?_, fun _ => error_ne_ok⟩
    simp only [Handler.execute, hc, Handler.on_writeFile, if_neg hp, hu]
  | some w =>
    rcases hw : w.write d.store p.id p.payload e.config.enforceSequence with ⟨x | _, w', t⟩
    · cases hx : x.isStorage with
      | false => exact ⟨_, _, _, yields_writeFile_refused hc hp hu hx hw, fun _ => error_ne_ok⟩
      | true => exact ⟨_, _, _, yields_writeFile_failed hc hp hu hx hw, fun _ => error_ne_ok⟩
    · exact ⟨_, _, _, yields_writeFile hc hp hu hw, fun r hr => (Except.ok.inj hr).symm⟩

private theorem exists_yields_closeFile (hc : p.command = .closeFile) :
    ∃ result e' d', e.Yields d p result e' d' ∧ ∀ r, result = .ok r → r = Handler.done := by
  cases hu : e.upload with
  | none =>
    refine ⟨.error .notOpen, e, d, fun ε o => ?_, fun _ => error_ne_ok⟩
    simp only [Handler.execute, hc, Handler.on_closeFile, hu]
  | some w =>
    refine ⟨_, _, _, yields_closeFile hc hu, fun r hr => ?_⟩
    cases hclose : (w.close d.store).1 with
    | error x => simp [hclose, Except.map] at hr
    | ok =>
      rw [hclose] at hr
      exact (Except.ok.inj hr).symm

/-- A command of an upload comes to a result in one stretch. -/
theorem exists_yields
    (hc : p.command = .openFile ∨ p.command = .writeFile ∨ p.command = .closeFile) :
    ∃ result e' d', e.Yields d p result e' d' ∧ ∀ r, result = .ok r → r = Handler.done := by
  obtain hc | hc | hc := hc
  · exact exists_yields_openFile hc
  · exact exists_yields_writeFile hc
  · exact exists_yields_closeFile hc

end

/-- The host is told that a command of an upload succeeded only if it was carried out; and if it was
then the host is told so, unless the transport refuses. -/
theorem Scene.Hears.told {a : Action σ ε} {e : Endpoint chunk φ} {p : Packet} (h : s.Hears a e p)
    (hc : p.command = .openFile ∨ p.command = .writeFile ∨ p.command = .closeFile) :
    ∃ answer replies, s.Answers a (.served answer replies) ∧
      (answer = .ok .success → e.accepts s.device p = true) ∧
      (e.accepts s.device p = true → answer = .ok .success ∨ ∃ x, answer = .error x) := by
  obtain ⟨result, e', d', hy, hdone⟩ := exists_yields (e := e) (d := s.device) hc
  obtain ⟨-, answer, replies, hanswers, hstatus⟩ := h.answers hy
  refine ⟨answer, replies, hanswers, ?_⟩
  rw [hy.accepts]
  cases result with
  | error x =>
    refine ⟨?_, nofun⟩
    rintro rfl
    obtain hstatus | ⟨y, hy⟩ := hstatus
    · exact absurd (Except.ok.inj hstatus).symm x.status_ne_success
    · cases hy
  | ok r =>
    obtain rfl := hdone r rfl
    exact ⟨fun _ => rfl, fun _ => hstatus⟩

end PanelLink
