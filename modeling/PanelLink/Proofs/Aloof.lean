import PanelLink.Proofs.Plain
import PanelLink.Proofs.Soundness

/-!
The requests that leave the upload alone and take nothing out of the store. They are the plain
commands and those on the screen.
-/
namespace PanelLink

variable {size chunk : Nat} {σ φ δ ε α : Type} [FileStore σ φ δ]
variable {R T : Pause → Device size σ φ → Device size σ φ → Prop}

/-- `J` is kept by all that commands do to the screen. -/
structure Showing (R T : Pause → Device size σ φ → Device size σ φ → Prop)
    (J : Assertion size chunk σ φ ε) : Prop where
  await {v s d} : J v s d → T .acknowledgement v d ∧ ∀ w, R .acknowledgement d w → J w s w
  look {v s d} : J v s d → J v s d.takeLeft.2
  requestStop {v s d} : J v s d → J v s d.requestStop.2
  teardown {v s d} (wasPlaying : Bool) : J v s d → J v s (d.teardown wasPlaying)
  launch {v s d} (path : Bytes) : J v s d → J v s (Device.launch path d).2
  showFile {v s d} (path : Bytes) : J v s d → J v s (Device.showFile path d).2
  writeRaw {v s d} (cursor : Nat) (pixels : Bytes) : J v s d →
    J v s (Device.writeRaw cursor pixels d).2
  cursor {v s d} (n : Nat) : J v s d →
    J v { s with endpoint := { s.endpoint with cursor := n } } d

/-- `J` is kept by everything that an `aloof` command does. -/
structure Aloof (R T : Pause → Device size σ φ → Device size σ φ → Prop)
    (J : CommandHandle φ δ → Assertion size chunk σ φ ε) : Prop extends
    KeptByPlain R T J, Showing R T (J .none)

/-- The commands that leave the upload alone and take nothing out of the store. -/
def Command.aloof : Command → Bool
  | rm | openFile | writeFile | closeFile | format => false
  | _ => true

namespace KeptByReading

variable {J : CommandHandle φ δ → Assertion size chunk σ φ ε}

theorem gather (hJ : KeptByReading R T J) (tries want : Nat) {v s d f} (h : J (.file f) v s d) :
    J (.file (FileStore.gather tries want d.store f).2.1) v s
      { d with store := (FileStore.gather tries want d.store f).2.2 } := by
  induction tries generalizing want d f with
  | zero => exact h
  | succ tries ih =>
    cases want with
    | zero => exact h
    | succ want =>
      have hr := hJ.read (want + 1) h
      unfold FileStore.gather
      rcases hread : FileStore.read d.store f (want + 1) with ⟨_ | bytes, f', t⟩
      · rwa [hread] at hr
      rw [hread] at hr
      cases bytes with
      | nil => exact hr
      | cons b bs => exact ih (want - bs.length) hr

theorem loadConfig (hJ : KeptByReading R T J) {v s d} (h : J .none v s d) :
    J .none v s { d with store := (Config.load d.store).2 } := by
  have hopen := hJ.openFile Config.location h
  unfold Config.load
  rcases ho : FileStore.openFile d.store Config.location .reading with ⟨e | f, t⟩
  · rw [ho] at hopen
    cases e <;> exact hopen
  rw [ho] at hopen
  have hread : J (.file (Config.readAll t f).2.1) v s
      { d with store := (Config.readAll t f).2.2 } := by
    have hg := hJ.gather Config.maxSize Config.maxSize hopen
    unfold Config.readAll FileStore.readFull
    rcases hgather : FileStore.gather Config.maxSize Config.maxSize t f with
        ⟨⟨bytes, _ | e⟩, f', t'⟩
    · rw [hgather] at hg
      dsimp only
      split
      · exact hg
      have hone := hJ.read 1 hg
      split <;>
        rename_i hr <;>
        simpa only [hr] using hone
    · rwa [hgather] at hg
  have hclose := hJ.closeFile hread
  dsimp only
  split
  · exact hclose
  · exact hclose
  · exact hclose

end KeptByReading

namespace Showing

open Handler

variable {J : Assertion size chunk σ φ ε}

theorem stop_then (hJ : Showing R T J) {v s d} (h : J v s d)
    {f : Bool → Device size σ φ → Run (Device size σ φ) α}
    {Q : Device size σ φ → α → Device size σ φ → Prop}
    (hf : ∀ v b w, J v s w → (f b w).Meets R T Q v) :
    ((Device.stop d).bind f).Meets R T Q v := by
  have hr := hJ.requestStop h
  rw [Device.stop_eq]
  split
  · rw [Run.bind_bind]
    have hlook := hJ.look hr
    unfold Device.awaitLeft
    rcases ht : d.requestStop.2.takeLeft with ⟨_ | _, w⟩
    · rw [ht] at hlook
      obtain ⟨hT, hw⟩ := hJ.await hlook
      exact ⟨hT, fun w' hw' => hf w' _ _ (hJ.teardown _ (hw w' hw'))⟩
    · rw [ht] at hlook
      exact hf v _ _ (hJ.teardown _ hlook)
  · exact hf v _ _ (hJ.teardown _ hr)

theorem stop (hJ : Showing R T J) :
    Conduct.Triple R T J (Conduct.ofRoutine Device.stop) fun _ => J := by
  refine .ofRoutine fun v s d h => ?_
  rw [← Run.bind_done (Device.stop d)]
  exact hJ.stop_then h fun v b w hw => hw

theorem start (hJ : Showing R T J) (path : Bytes) {v s d} (h : J v s d) :
    (Device.start path d).Meets R T (fun v _ w => J v s w) v :=
  hJ.stop_then h fun _ _ _ hw => hJ.launch path hw

theorem showStill (hJ : Showing R T J) (path : Bytes) {v s d} (h : J v s d) :
    (Device.showStill path d).Meets R T (fun v _ w => J v s w) v :=
  hJ.stop_then h fun _ _ _ hw => hJ.showFile path hw

theorem chooseImage (hJ : Showing R T J) (payload : Bytes) :
    Keeps R T J (Handler.chooseImage payload) := by
  intro v s d h
  rw [Conduct.on_run, on_chooseImage]
  split
  · exact h
  rename_i path _
  split
  · rw [Run.meets_bind]
    refine (hJ.start path h).imp fun v r w hw => ?_
    cases r <;> exact hJ.cursor 0 hw
  · rw [Run.meets_bind]
    refine (hJ.showStill path h).imp fun v r w hw => ?_
    cases r <;> exact hJ.cursor 0 hw

theorem writeDisplay (hJ : Showing R T J) (payload : Bytes) :
    Keeps R T J (Handler.writeDisplay payload) := by
  have hpaint : Keeps R T J (paint payload) := by
    unfold paint
    refine .bind (.endpoint (Q := fun _ => J) fun _ _ _ h => h) fun e => ?_
    refine .bind (.always (.onDevice (Q := fun _ => J) fun _ _ _ h =>
      hJ.writeRaw e.cursor payload h)) fun (result, cursor) => ?_
    exact .bind (.modifyEndpoint fun _ _ _ h => hJ.cursor cursor h) fun _ =>
      .bind .settle fun _ => .skip
  intro v s d h
  rw [Conduct.on_run, on_writeDisplay]
  split
  · exact h
  split
  · exact hJ.stop_then h fun v b w hw => hpaint v s w hw
  · exact hpaint v s d h

theorem routine (hJ : Showing R T J)
    (loadConfig : ∀ v s d, J v s d → J v s { d with store := (Config.load d.store).2 })
    (r : Request ε) (hr : ∀ transport bytes, r ≠ .frame transport bytes) {v s d} (h : J v s d) :
    (r.routine s.endpoint d).Meets R T (fun v x w => x.2 = s.endpoint ∧ J v s w) v := by
  cases r with
  | frame transport bytes => exact absurd rfl (hr transport bytes)
  | stop =>
    rw [Request.routine_stop]
    exact hJ.stop_then h fun v b w hw => ⟨rfl, hw⟩
  | start path =>
    rw [Request.routine_start, Run.meets_bind]
    exact (hJ.start path h).imp fun v r w hw => ⟨rfl, hw⟩
  | showStill path =>
    rw [Request.routine_showStill, Run.meets_bind]
    exact (hJ.showStill path h).imp fun v r w hw => ⟨rfl, hw⟩
  | loadConfig => exact ⟨rfl, loadConfig v s d h⟩

end Showing

namespace Aloof

open Handler

variable {J : CommandHandle φ δ → Assertion size chunk σ φ ε}

theorem execute (hJ : Aloof R T J) (p : Packet) (hp : p.command.aloof = true) :
    Keeps R T (J .none) (Handler.execute p) := by
  by_cases hplain : p.command.plain = true
  · exact hJ.plain p hplain
  unfold Handler.execute
  cases hc : p.command with
  | chooseImage => exact hJ.chooseImage _
  | writeDisplay => exact hJ.writeDisplay _
  | rm | openFile | writeFile | closeFile | format => simp [Command.aloof, hc] at hp
  | _ => simp [Command.plain, hc] at hplain

theorem routine (hJ : Aloof R T J) (r : Request ε)
    (hr : ∀ transport bytes, r ≠ .frame transport bytes)
    {v s d} (h : J .none v s d) :
    (r.routine s.endpoint d).Meets R T
      (fun v x w => x.2 = s.endpoint ∧ J .none v s w) v :=
  hJ.toShowing.routine (fun _ _ _ h => hJ.loadConfig h) r hr h

end Aloof

end PanelLink
