import PanelLink.Proofs.Fairness
import PanelLink.Proofs.Rejection
import PanelLink.Proofs.RoundTrip

/-!
The discipline of replies. A frame is answered by some replies with data, which only a file or a
split listing has, and by exactly one last reply; that one tells what came of the command, and says
nothing else if the command failed.
-/
namespace PanelLink

open Handler

variable {size chunk : Nat} {σ φ δ ε : Type}

variable [FileStore σ φ δ]

variable [LawfulFileStore σ φ δ]

structure Sent (config : Config) (frame : Bytes) (t : Transport ε)
    (x : Except CommandError Reply × Serving chunk φ ε) : Prop where
  transport : x.2.outbox.transport = t
  unbroken : (∀ n, t.refuse n = none) → x.2.outbox.failure = none
  data (r : Reply) : r ∈ x.2.outbox.sent →
    ∃ p, Packet.decode frame = .ok p ∧ r.Data config p.command
  fits : (finalReply x.1).payload.length ≤ Reply.capacity
  roomy (y : ReplyFull) : x.1 ≠ .error (.ofReplyFull y)

omit [FileStore σ φ δ] [LawfulFileStore σ φ δ] in
theorem Outcome.sent {t : Transport ε} {config : Config} {frame : Bytes} {p : Packet}
    {x : Except CommandError Reply × Serving chunk φ ε} (h : Outcome t config p.command x)
    (hp : Packet.decode frame = .ok p) : Sent config frame t x where
  transport := h.sends.transport
  unbroken := h.sends.unbroken
  data r hr := ⟨p, hp, h.sends.data r hr⟩
  fits := by
    have hfits := h.fits
    cases hx : x.1 with
    | ok r =>
      rw [hx] at hfits
      exact hfits
    | error c => exact Nat.zero_le _
  roomy y hx := by
    have hfits := h.fits
    rw [hx] at hfits
    cases hfits

namespace Scene

end Scene

end PanelLink
