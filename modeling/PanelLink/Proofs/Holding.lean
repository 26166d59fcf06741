import PanelLink.Proofs.Aloof
import PanelLink.Proofs.Orderly

/-!
Who holds the store. A command that lists or sends keeps the store across its pauses and lets go of
it before it ends, so between two commands nobody holds it.
-/
namespace PanelLink

open Device Handler

variable {size chunk : Nat} {σ φ δ ε α : Type} [FileStore σ φ δ]

namespace Device

/-! ## Steps that take no hold of the store -/

private theorem tick_held (d : Device size σ φ) : d.tick.2.held = d.held := by
  obtain ⟨-, h, -⟩ | ⟨-, h, -⟩ | ⟨-, -, -, h⟩ := d.tick_cases <;> rw [h]

theorem aside_held (d : Device size σ φ) (a : Aside σ) : (a.apply d).2.held = d.held := by
  cases a with
  | poll =>
    obtain ⟨t, f, b, p, l, s, e, ds, h, -⟩ := d.pollLoader_touches
    show d.pollLoader.held = d.held
    rw [h]
  | tick => exact d.tick_held
  | timer =>
    show d.pollTimer.held = d.held
    unfold pollTimer
    split
    · exact d.tick_held
    · rfl
  | alter change => rfl
  | setFault fault => rfl

theorem arrived_held (d : Device size σ φ) (p : Pause) : (d.arrived p).2.held = d.held := by
  obtain ⟨b, h⟩ := d.arrived_rest p
  rw [h]

theorem teardown_held (d : Device size σ φ) (wasPlaying : Bool) :
    (d.teardown wasPlaying).held = d.held := by
  have hclose : d.closeAnimation.held = d.held := by
    unfold closeAnimation
    split <;> rfl
  unfold teardown
  split <;> exact hclose

theorem launch_held (path : Bytes) (d : Device size σ φ) :
    (Device.launch path d).2.held = d.held := by
  unfold Device.launch callStore
  dsimp only
  rcases FileStore.stat d.store path with ⟨_ | ⟨kind, length⟩, s₁⟩
  · rfl
  cases kind with
  | dir => rfl
  | file =>
    by_cases hn : length / size = 0
    · simp only [hn, if_true]
    simp only [hn, if_false]
    rcases FileStore.openFile s₁ path .reading with ⟨_ | f, s₂⟩
    · rfl
    · unfold installFile
      cases hf : d.file <;> rfl

theorem showFile_held (path : Bytes) (d : Device size σ φ) :
    (Device.showFile path d).2.held = d.held := by
  obtain ⟨t, b, frames, h⟩ := showFile_eq path d
  rw [h]

theorem writeRaw_held (cursor : Nat) (pixels : Bytes) (d : Device size σ φ) :
    (Device.writeRaw cursor pixels d).2.held = d.held := by
  obtain ⟨b, frames, h⟩ := writeRaw_eq cursor pixels d
  rw [h]

/-! ## A store that is held -/

private theorem serve_store {d : Device size σ φ} (h : d.held = true) :
    d.serve.store = d.store := by
  unfold serve
  dsimp only
  split
  · rfl
  · rfl
  · rw [if_pos h]

/-- The loader leaves a store alone that somebody holds. -/
theorem pollLoader_store {d : Device size σ φ} (h : d.held = true) :
    d.pollLoader.store = d.store := by
  unfold pollLoader
  split
  · split
    · exact serve_store h
    · rfl
  · exact serve_store h
  · rw [if_pos h]

theorem tick_store (d : Device size σ φ) : d.tick.2.store = d.store := by
  obtain ⟨-, h, -⟩ | ⟨-, h, -⟩ | ⟨-, -, -, h⟩ := d.tick_cases <;> rw [h]

end Device

/-! ## Commands -/

def Unheld : Assertion size chunk σ φ ε :=
  fun _ _ d => d.held = false

variable {ok : Aside σ → Prop}

theorem free_unheld : Free (Unheld : Assertion size chunk σ φ ε) :=
  fun _ _ _ _ _ _ h => h

theorem resumes_unheld {p : Pause} {d w : Device size σ φ} (h : Resumes ok p d w)
    (hd : d.held = false) : w.held = false :=
  h.induct (P := (·.held = false)) (fun d a _ hd => (d.aside_held a).trans hd)
    (fun d hd => (d.arrived_held p).trans hd) hd

theorem unheld_sending :
    KeptBySending (Resumes ok) anyhow (Unheld : Assertion size chunk σ φ ε) where
  pause h _ := ⟨trivial, fun _ hw => resumes_unheld hw h⟩
  outbox _ h := h

/-- The store is not held in the end if the second part leaves it so from anywhere. -/
theorem lets_go {P : Assertion size chunk σ φ ε} {β : Type} (c : Conduct size chunk σ φ ε α)
    {f : α → Conduct size chunk σ φ ε β}
    (hf : ∀ a, Conduct.Triple (Resumes ok) anyhow (fun _ _ _ => True) (f a) fun _ => Unheld) :
    Conduct.Triple (Resumes ok) anyhow P (c >>= f) fun _ => Unheld := by
  refine .bind (Q := fun _ _ _ _ => True) (fun v s d _ => ?_) hf
  exact Run.meets_of_forall (fun _ _ _ => trivial) (fun _ _ _ => trivial) v _

theorem ls_unheld :
    Keeps (Resumes ok) anyhow (Unheld : Assertion size chunk σ φ ε) Handler.ls := by
  unfold Handler.ls
  refine .bind free_unheld.endpoint fun e => ?_
  refine .bind (free_unheld.call _) fun dir => ?_
  refine .bind (Q := fun _ => Unheld) (.always ?_) fun (listed, closed) => ?_
  · refine lets_go _ fun _ => lets_go _ fun bound => lets_go _ fun (listed, dir) =>
      lets_go _ fun closed => ?_
    exact .bind (.setHeld (Q := fun _ => Unheld) fun _ _ _ _ => rfl) fun _ => .skip
  · refine .bind .settle fun reply => .bind .settle fun _ => ?_
    split
    · exact .bind (.send (fun _ _ _ h => unheld_sending.pause h) fun _ _ _ h => h) fun _ => .skip
    · exact .skip

theorem cat_unheld (payload : Bytes) :
    Keeps (Resumes ok) anyhow (Unheld : Assertion size chunk σ φ ε) (Handler.cat payload) := by
  unfold Handler.cat
  refine .bind (free_unheld.path payload) fun path => ?_
  refine .bind (free_unheld.call _) fun f => ?_
  refine .bind (Q := fun _ => Unheld) (.always ?_) fun (streamed, closed) => ?_
  · refine lets_go _ fun _ => lets_go _ fun bound => lets_go _ fun (streamed, f) =>
      lets_go _ fun closed => ?_
    exact .bind (.setHeld (Q := fun _ => Unheld) fun _ _ _ _ => rfl) fun _ => .skip
  · exact .bind .settle fun _ => .bind .settle fun _ => .skip

private theorem showing_unheld :
    Showing (Resumes ok) anyhow (Unheld : Assertion size chunk σ φ ε) where
  await h := ⟨trivial, fun _ hw => resumes_unheld hw h⟩
  look {_ _ d} h := (d.arrived_held .acknowledgement).trans h
  requestStop h := h
  teardown wasPlaying h := (teardown_held _ wasPlaying).trans h
  launch path h := (launch_held path _).trans h
  showFile path h := (showFile_held path _).trans h
  writeRaw cursor pixels h := (writeRaw_held cursor pixels _).trans h
  cursor _ h := h

private theorem execute_unheld (p : Packet) :
    Keeps (Resumes ok) anyhow (Unheld : Assertion size chunk σ φ ε) (Handler.execute p) := by
  by_cases hp : p.command.brief = true
  · exact free_unheld.brief p hp
  unfold Handler.execute
  cases hc : p.command with
  | ls => exact ls_unheld
  | cat => exact cat_unheld _
  | format =>
    unfold Handler.format
    exact .bind (.always showing_unheld.stop) fun _ => free_unheld.wipe fun _ _ _ _ h => h
  | chooseImage => exact showing_unheld.chooseImage _
  | writeDisplay => exact showing_unheld.writeDisplay _
  | _ => simp [Command.brief, hc] at hp

/-- Whatever is asked for, nobody holds the store afterwards. -/
theorem routine_unheld (r : Request ε) (e : Endpoint chunk φ) {d : Device size σ φ}
    (h : d.held = false) :
    (r.routine e d).Meets (Resumes ok) anyhow (fun _ _ w => w.held = false) d := by
  cases r with
  | frame transport bytes =>
    rw [Request.routine_frame, Run.meets_bind]
    exact unheld_sending.serve bytes (fun _ _ _ h => h) (fun p _ => execute_unheld p) d ⟨e, _⟩ d h
  | _ =>
    refine (showing_unheld.routine (s := ⟨e, .empty .instant⟩) (fun _ _ _ h => h) _ (by simp)
      h).imp fun v x w hw => hw.2

namespace Scene

/-- Between two commands nobody holds the store. -/
theorem unheld {config : Config} {timing : Timing} {store : σ} {as : List (Action σ ε)}
    {e : Endpoint chunk φ}
    (h : ((initial config timing store : Scene size chunk σ φ ε).after as).hand = .free e) :
    ((initial config timing store : Scene size chunk σ φ ε).after as).device.held = false := by
  have hsound : ((initial config timing store : Scene size chunk σ φ ε).after as).Sound
      (fun _ => True) (fun _ d => d.held = false) (fun _ _ => anyhow)
      (fun _ _ _ _ w => w.held = false) := by
    refine after_induct (fun _ => True) (fun s a _ hs => ?_) (fun _ _ => trivial) (Eq.refl false)
    exact sound_act hs a (fun _ _ => trivial) (fun x _ d _ hd => (d.aside_held x).trans hd)
      (fun r e _ hd => routine_unheld r e hd) fun _ _ _ _ _ _ hw => hw
  exact hsound.ready h

end Scene

end PanelLink
