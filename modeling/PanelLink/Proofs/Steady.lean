import PanelLink.Proofs.Aloof

/-! Properties of a device that no step of it breaks, whatever the store does: they hold in every
scene. -/
namespace PanelLink

variable {size chunk : Nat} {σ φ δ ε : Type} [FileStore σ φ δ]

/-- Every step of the tasks and of the commands keeps `I`. -/
structure Steady (I : Device size σ φ → Prop) : Prop where
  store {d} (t : σ) : I d → I { d with store := t }
  held {d} (b : Bool) : I d → I { d with held := b }
  aside {d} (a : Aside σ) : I d → I (a.apply d).2
  look {d} (p : Pause) : I d → I (d.arrived p).2
  requestStop {d} : I d → I d.requestStop.2
  teardown {d} (wasPlaying : Bool) : I d → I (d.teardown wasPlaying)
  launch {d} (path : Bytes) : I d → I (Device.launch path d).2
  showFile {d} (path : Bytes) : I d → I (Device.showFile path d).2
  writeRaw {d} (cursor : Nat) (pixels : Bytes) : I d → I (Device.writeRaw cursor pixels d).2

namespace Steady

open Handler

variable {I : Device size σ φ → Prop}

def here (I : Device size σ φ → Prop) : Assertion size chunk σ φ ε :=
  fun _ _ d => I d

def pausing (I : Device size σ φ → Prop) : Pause → Device size σ φ → Device size σ φ → Prop :=
  fun _ _ d => I d

theorem resumes (hI : Steady I) {ok : Aside σ → Prop} {p : Pause} {d w : Device size σ φ}
    (h : Device.Resumes ok p d w) : I d → I w :=
  h.induct (fun _ a _ h => hI.aside a h) fun _ h => hI.look p h

variable {ok : Aside σ → Prop}

theorem aloof (hI : Steady I) : Aloof (Device.Resumes ok) (pausing I)
    fun _ : CommandHandle φ δ => (here I : Assertion size chunk σ φ ε) where
  pause h _ := ⟨h, fun _ hw => hI.resumes hw h⟩
  outbox _ h := h
  held b h := hI.held b h
  cwd _ h := h
  clock _ h := h
  openFile _ h := by split <;> exact hI.store _ h
  create _ h := by split <;> exact hI.store _ h
  closeFile h := hI.store _ h
  read _ h := hI.store _ h
  openDir _ h := by split <;> exact hI.store _ h
  readDir h := hI.store _ h
  closeDir h := hI.store _ h
  mkdir _ h := hI.store _ h
  usedBlocks h := hI.store _ h
  await h := ⟨h, fun _ hw => hI.resumes hw h⟩
  look h := hI.look .acknowledgement h
  requestStop h := hI.requestStop h
  teardown b h := hI.teardown b h
  launch path h := hI.launch path h
  showFile path h := hI.showFile path h
  writeRaw cursor pixels h := hI.writeRaw cursor pixels h
  cursor _ h := h

theorem execute (hI : Steady I) (p : Packet) :
    Keeps (Device.Resumes ok) (pausing I) (here I : Assertion size chunk σ φ ε)
      (Handler.execute p) := by
  have hfree : Free (here I : Assertion size chunk σ φ ε) := fun _ _ _ _ t _ h => hI.store t h
  by_cases hp : p.command.aloof = true
  · exact hI.aloof.execute p hp
  unfold Handler.execute
  cases hc : p.command with
  | rm => exact hfree.rm _
  | openFile => exact hfree.openFile _
  | writeFile => exact hfree.writeFile _ _
  | closeFile => exact hfree.closeFile
  | format =>
    unfold Handler.format
    exact .bind (.always hI.aloof.stop) fun _ => hfree.wipe fun _ _ _ _ h => h
  | _ => simp [Command.aloof, hc] at hp

theorem routine (hI : Steady I) (e : Endpoint chunk φ) (r : Request ε) {d : Device size σ φ}
    (h : I d) :
    (r.routine e d).Meets (Device.Resumes ok) (pausing I) (fun _ _ w => I w) d := by
  cases r with
  | frame transport bytes =>
    rw [Request.routine_frame, Run.meets_bind]
    exact hI.aloof.serve bytes (fun _ _ _ h => h) (fun p _ => hI.execute p) d ⟨e, _⟩ d h
  | _ =>
    refine (hI.aloof.routine (s := ⟨e, .empty .instant⟩) _ (by simp) h).imp fun v x w hw => hw.2

/-- What every step keeps holds in every scene. -/
theorem after (hI : Steady I) {config : Config} {timing : Timing} {store : σ}
    (h : I (.initial timing store)) (as : List (Action σ ε)) :
    I ((Scene.initial config timing store : Scene size chunk σ φ ε).after as).device := by
  let P (s : Scene size chunk σ φ ε) : Prop := I s.device ∧
    s.Sound (fun _ => True) (fun _ d => I d) (fun _ _ => pausing I) (fun _ _ _ _ w => I w)
  have hstep (s : Scene size chunk σ φ ε) (a : Action σ ε) (hs : P s) : P (s.act a).2 := by
    have hsound := Scene.sound_act hs.2 a (fun _ _ => trivial) (fun x _ _ _ h => hI.aside x h)
      (fun r e _ h => hI.routine e r h) fun _ _ _ _ _ _ h => h
    refine ⟨?_, hsound⟩
    obtain ⟨x, rfl⟩ | ⟨r, e, d, run, ha⟩ | ⟨-, ha | ⟨r, e, p, k, -, -, ha⟩⟩ := s.act_cases a
    · exact hI.aside x hs.1
    · have hmeets := hs.2.meets (fun r e _ h => hI.routine e r h) ha
      rw [ha.act_eq]
      obtain ⟨p, k, -, -, hT⟩ | ⟨x, e', -, -, hQ⟩ :=
        Scene.settle_cases (T := fun _ _ => pausing I) (Q := fun _ _ _ _ w => I w) hmeets
      · exact hT
      · exact hQ
    · rw [ha]
      exact hs.1
    · rw [ha]
      exact hI.look p hs.1
  have hfirst : P (.initial config timing store) := ⟨h, by unfold Scene.Sound; exact h⟩
  exact (Scene.after_induct (fun _ => True) (fun s a _ => hstep s a) (fun _ _ => trivial) hfirst).1

end Steady

end PanelLink
