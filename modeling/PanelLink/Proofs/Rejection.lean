import PanelLink.Proofs.Outcomes
import PanelLink.Store.Lawful
import PanelLink.Store.Recorded

/-!
Rejected input. Whether a frame is rejected shows in the frame, the settings and the working
directory, before anything is done; the host is told so, and all else is as it was.
-/
namespace PanelLink

open Handler

variable {size chunk : Nat} {σ φ δ ε : Type}

/-- The failure of a frame that is rejected: it is no packet, or there is an objection to the input
of its command. -/
def Endpoint.rejection (e : Endpoint chunk φ) (frame : Bytes) : Option CommandError :=
  match Packet.decode frame with
  | .error c => some (.protocol c)
  | .ok p => (e.objection p).map .validation

def Reply.rejection : Reply :=
  .ofStatus .invalidCommand

theorem CommandError.finalReply_rejects {c : CommandError} (h : c.rejects = true) :
    finalReply (.error c) = .rejection := by
  cases c with
  | protocol | validation => rfl
  | _ => cases h

variable [FileStore σ φ δ] {e : Endpoint chunk φ} {t : Transport ε} {frame : Bytes}
  {c : CommandError}

section

variable [LawfulFileStore σ φ δ]

/-- A frame is rejected before anything is done, or its command comes to an outcome, whatever the
device is like and whatever happens meanwhile. -/
theorem Handler.handle_cases (e : Endpoint chunk φ) (t : Transport ε) (frame : Bytes)
    (d : Device size σ φ) :
    (∃ c, e.rejection frame = some c ∧
      on (handle frame) ⟨e, .empty t⟩ d = .done (.error c, ⟨e, .empty t⟩) d) ∨
    ∃ p, Packet.decode frame = .ok p ∧ e.rejection frame = none ∧
      ∀ (R : Pause → Device size σ φ → Device size σ φ → Prop) (v : Device size σ φ),
        (on (handle frame) ⟨e, .empty t⟩ d).Meets R anyhow
          (fun _ x _ => Outcome t e.config p.command x) v := by
  unfold Endpoint.rejection
  cases hp : Packet.decode frame with
  | error c =>
    refine .inl ⟨.protocol c, rfl, ?_⟩
    rw [handle, hp]
    rfl
  | ok p =>
    have hsorted : Sorted t e.config p.command (e.objection p)
        (execute p : Handler size chunk σ φ ε Reply) ⟨e, .empty t⟩ :=
      execute_sorted p (.empty t e p.command)
    rw [handle_ok hp]
    cases hsorted with
    | rejected x hx hrun => exact .inl ⟨.validation x, by simp [hx], hrun d⟩
    | concluded hnone hrun => exact .inr ⟨p, rfl, by simp [hnone], fun R v => hrun R v d⟩

/-- A frame that is rejected fails before it does anything, whatever the device is like. -/
theorem Endpoint.on_handle_rejected (h : e.rejection frame = some c) (d : Device size σ φ) :
    on (handle frame) ⟨e, .empty t⟩ d = .done (.error c, ⟨e, .empty t⟩) d := by
  obtain ⟨x, hx, hrun⟩ | ⟨p, -, hnone, -⟩ := handle_cases e t frame d
  · obtain rfl : x = c := Option.some.inj (hx.symm.trans h)
    exact hrun
  · cases hnone.symm.trans h

/-- No other frame comes to a rejection. -/
theorem Endpoint.rejection_of_reaches {R : Pause → Device size σ φ → Device size σ φ → Prop}
    {d w : Device size σ φ} {s : Serving chunk φ ε} (hc : c.rejects = true)
    (h : (on (handle frame) ⟨e, .empty t⟩ d).Reaches R (.error c, s) w) :
    e.rejection frame = some c := by
  obtain ⟨x, hx, hrun⟩ | ⟨p, -, -, hrun⟩ := handle_cases e t frame d
  · rw [hrun] at h
    obtain ⟨hfailed, -⟩ := Run.reaches_done.mp h
    rw [hx, Except.error.inj (congrArg Prod.fst hfailed)]
  · obtain ⟨v, houtcome⟩ := h.meets (hrun R d)
    have hnot : c.rejects = false := houtcome.fits
    rw [hc] at hnot
    cases hnot

/-- A frame comes to a rejection exactly if it is rejected before it does anything. -/
theorem Endpoint.rejection_iff {R : Pause → Device size σ φ → Device size σ φ → Prop}
    (d : Device size σ φ) (hc : c.rejects = true) :
    (∃ s w, (on (handle frame) ⟨e, .empty t⟩ d).Reaches R (.error c, s) w) ↔
      e.rejection frame = some c := by
  constructor
  · rintro ⟨s, w, h⟩
    exact rejection_of_reaches hc h
  · intro h
    refine ⟨⟨e, .empty t⟩, d, ?_⟩
    rw [on_handle_rejected h]
    exact .done _ d

/-- The routine of a frame that is rejected sends one reply and is over. -/
theorem Request.routine_rejected (h : e.rejection frame = some c) (hc : c.rejects = true)
    (hquick : t.slow = false) (htakes : t.refuse 0 = none) (d : Device size σ φ) :
    (Request.frame t frame).routine e d =
      .done (.served (.ok .invalidCommand) [.rejection], e) d := by
  have hpost : (Outbox.empty t).post .rejection = (true, (Outbox.empty t).took [.rejection]) := by
    simp [Outbox.post, Outbox.empty, Outbox.took, htakes]
  rw [routine_frame, Conduct.on_serve_handle rfl, Endpoint.on_handle_rejected h, Run.done_bind,
    Conduct.on_conclude_quick rfl hquick, Run.done_bind, CommandError.finalReply_rejects hc]
  dsimp only
  rw [hpost]
  rfl

end

namespace Recorded

variable {η α : Type}

omit [FileStore σ φ δ] in
/-- What a call through a handle gives is what the store gives. -/
theorem callOn_eq {d d' : Recorded σ} {k : StoreCall} {t t' : Ticket η} {a : α}
    {answer : σ → η → α × η × σ} (h : d.callOn k t answer = (a, t', d')) :
    answer d.store t.handle = (a, t'.handle, d'.store) := by
  simp only [callOn, Prod.mk.injEq] at h
  obtain ⟨rfl, rfl, rfl⟩ := h
  rfl

instance [LawfulFileStore σ φ δ] : LawfulFileStore (Recorded σ) (Ticket φ) (Ticket δ) where
  length_read_le h := LawfulFileStore.length_read_le (σ := σ) (callOn_eq h)
  entriesLeft_readDir h := LawfulFileStore.entriesLeft_readDir (σ := σ) (callOn_eq h)

end Recorded

namespace Scene

variable [LawfulFileStore σ φ δ] {s : Scene size chunk σ φ ε}

/-- Rejected input changes nothing. If a frame over a quick transport can come to a rejection, by
whatever happens meanwhile, then it is rejected by itself: its routine sends one reply that says so,
with nothing in it, and is over, on any device and so without a call of its store or its panel; and
the scene is as it was. -/
theorem rejection_changes_nothing (hfree : s.hand = .free e) (hquick : t.slow = false)
    (htakes : t.refuse 0 = none) (hc : c.rejects = true)
    (hends : ∃ v w, (on (handle frame) ⟨e, .empty t⟩ s.device).Reaches
      (Device.Resumes fun _ => True) (.error c, v) w) :
    e.rejection frame = some c ∧
    Reply.rejection.frame = Status.invalidCommand.code :: List.replicate Reply.capacity 0 ∧
    (∀ d : Device size σ φ, (Request.frame t frame).routine e d =
      .done (.served (.ok .invalidCommand) [.rejection], e) d) ∧
    s.act (.request (.frame t frame)) =
      (.answered (.served (.ok .invalidCommand) [.rejection]), s) := by
  have hrejected : e.rejection frame = some c := (Endpoint.rejection_iff s.device hc).mp hends
  have hroutine (d : Device size σ φ) : (Request.frame t frame).routine e d =
      .done (.served (.ok .invalidCommand) [.rejection], e) d :=
    Request.routine_rejected hrejected hc hquick htakes d
  refine ⟨hrejected, rfl, hroutine, ?_⟩
  have hscene : (⟨s.device, .free e⟩ : Scene size chunk σ φ ε) = s := by rw [← hfree]
  rw [act_request hfree, hroutine]
  exact Prod.ext rfl hscene

/-- No pixels at all, while an animation plays and an upload has a byte pending: the animation is
not stopped, and no call is noted. -/
theorem empty_pixels_stop_nothing :
    let send (command : Command) (payload : Bytes) : Action (Recorded Volume) Unit :=
      .request (.frame .instant (Packet.frame ⟨command, 1, payload⟩))
    let volume := (Volume.fresh 1 16).put [[97]] (.file [7, 8])
    let first : Scene 1 2 (Recorded Volume) (Ticket FileHandle) Unit :=
      initial {} ⟨1, 1⟩ (.ofStore volume)
    let s := first.after [send .openFile [98], send .writeFile [5], .request (.start [97]),
      .aside .poll]
    s.device.playback.playing = true ∧ s.device.store.calls.length = 5 ∧
      s.act (send .writeDisplay []) =
        (.answered (.served (.ok .invalidCommand) [.rejection]), s) := by
  intro send volume first s
  have hplaying : s.device.playback.playing = true := by decide +kernel
  have hcalls : s.device.store.calls.length = 5 := by decide +kernel
  let e : Endpoint 2 (Ticket FileHandle) :=
    { (Endpoint.initial {} : Endpoint 2 (Ticket FileHandle)) with
      upload := some ⟨⟨0, ⟨[[98]], 0, .appending, 0⟩⟩, ⟨[5]⟩, some 1⟩ }
  have hfree : s.hand = .free e := hand_of_endpoint? (by decide +kernel)
  let v : Serving 2 (Ticket FileHandle) Unit := ⟨e, .empty .instant⟩
  have hends : (on (handle (Packet.frame ⟨.writeDisplay, 1, []⟩)) v s.device).Reaches
      (Device.Resumes fun _ => True) (.error (.validation .insufficientData), v) s.device :=
    .done _ _
  obtain ⟨-, -, -, hact⟩ := rejection_changes_nothing hfree rfl rfl rfl ⟨v, s.device, hends⟩
  exact ⟨hplaying, hcalls, hact⟩

end Scene

end PanelLink
