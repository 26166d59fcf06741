import PanelLink.Proofs.Codec
import PanelLink.Proofs.Spelling
import PanelLink.Store.Recorded

/-!
What a command goes by in its payload. A path ends before the first zero byte, so neither the zeros
that fill a report nor anything behind them is heeded; some commands heed nothing at all.
-/
namespace PanelLink

variable {size chunk : Nat} {σ φ δ ε : Type} [FileStore σ φ δ]

namespace Command

/-- The commands that take their payload as it is, zeros included. -/
def verbatim : Command → Bool
  | writeFile | writeDisplay | setTime => true
  | _ => false

/-- What a command goes by: all of its payload, the path at its front, or nothing. -/
def heeds (c : Command) (payload : Bytes) : Bytes :=
  match c with
  | cd | rm | mkdir | touch | cat | openFile | chooseImage => payload.takeWhile (· ≠ 0)
  | ls | pwd | closeFile | format | flashRemaining => []
  | writeFile | writeDisplay | setTime => payload

end Command

/-! ## The handlers -/

variable {a b : Bytes}

private theorem Path.extract_congr (h : a.takeWhile (· ≠ 0) = b.takeWhile (· ≠ 0)) (limit : Nat) :
    extract a limit = extract b limit := by
  unfold extract
  rw [h]

namespace Handler

private theorem pathArgument_congr (h : a.takeWhile (· ≠ 0) = b.takeWhile (· ≠ 0)) :
    (pathArgument a : Handler size chunk σ φ ε Bytes) = pathArgument b := by
  unfold pathArgument
  rw [Path.extract_congr h]

/-- A command is carried out by what it heeds alone. -/
theorem execute_congr {c : Command} (h : c.heeds a = c.heeds b) (i : UInt32) :
    (execute ⟨c, i, a⟩ : Handler size chunk σ φ ε Reply) = execute ⟨c, i, b⟩ := by
  cases c with
  | ls | pwd | closeFile | format | flashRemaining => rfl
  | writeFile | writeDisplay | setTime =>
    obtain rfl : a = b := h
    rfl
  | cd =>
    show cd a = cd b
    unfold cd
    rw [Path.extract_congr h]
  | rm =>
    show rm a = rm b
    unfold rm
    rw [pathArgument_congr h]
  | mkdir =>
    show mkdir a = mkdir b
    unfold mkdir
    rw [pathArgument_congr h]
  | touch =>
    show touch a = touch b
    unfold touch
    rw [pathArgument_congr h]
  | cat =>
    show cat a = cat b
    unfold cat
    rw [pathArgument_congr h]
  | openFile =>
    show openFile a = openFile b
    unfold openFile
    rw [pathArgument_congr h]
  | chooseImage =>
    show chooseImage a = chooseImage b
    unfold chooseImage
    rw [pathArgument_congr h]

end Handler

/-! ## Frames -/

/-- Frames of one command and packet id, with payloads that the command takes for the same. -/
def Packet.Alike (f g : Bytes) : Prop :=
  ∃ c i a b, Packet.decode f = .ok ⟨c, i, a⟩ ∧ Packet.decode g = .ok ⟨c, i, b⟩ ∧
    c.heeds a = c.heeds b

variable {f g : Bytes}

theorem Conduct.serve_congr (h : Packet.Alike f g) :
    (serve f : Conduct size chunk σ φ ε (Except ε Status)) = serve g := by
  obtain ⟨c, i, a, b, hf, hg, hheeds⟩ := h
  unfold serve
  rw [hf, hg]
  dsimp only
  rw [Handler.execute_congr hheeds i]

theorem Endpoint.dispatch_congr (h : Packet.Alike f g) (e : Endpoint chunk φ)
    (transport : Transport ε) :
    (e.dispatch transport f : Routine (Device size σ φ) (Served chunk φ ε)) =
      e.dispatch transport g := by
  unfold dispatch
  rw [Conduct.serve_congr h]

/-- The zeros that are put after a payload end the path in it, if it was not over. -/
theorem Command.heeds_padTo {c : Command} (hc : c.verbatim = false) (payload : Bytes) (n : Nat) :
    c.heeds (payload.padTo n) = c.heeds payload := by
  have hzeros (k : Nat) : (List.replicate k (0 : UInt8)).takeWhile (· ≠ 0) = [] := by
    cases k <;> rfl
  have hpath : (payload.padTo n).takeWhile (· ≠ 0) = payload.takeWhile (· ≠ 0) := by
    rw [Bytes.padTo, List.takeWhile_append, hzeros, List.append_nil]
    split
    · rename_i hall
      exact ((List.takeWhile_prefix _).eq_of_length hall).symm
    · rfl
  cases c with
  | cd | rm | mkdir | touch | cat | openFile | chooseImage => exact hpath
  | ls | pwd | closeFile | format | flashRemaining => rfl
  | writeFile | writeDisplay | setTime => cases hc

/-- Frames with one header and payloads that are heeded alike. -/
theorem Packet.alike_header {p : Packet} (hp : a.length ≤ maxPayload) (hq : b.length ≤ maxPayload)
    (h : p.command.heeds a = p.command.heeds b) : Alike (p.header ++ a) (p.header ++ b) :=
  ⟨p.command, p.id, a, b, decode_header_append p hp, decode_header_append p hq, h⟩

theorem Packet.alike_padTo {p : Packet} (hp : p.payload.length ≤ maxPayload)
    (hc : p.command.verbatim = false) : Alike p.frame (p.frame.padTo reportSize) := by
  have hpadded : (p.payload.padTo maxPayload).length ≤ maxPayload := by
    rw [Bytes.length_padTo]
    omega
  rw [padTo_frame]
  exact alike_header hp hpadded (Command.heeds_padTo hc p.payload maxPayload).symm

namespace Scene

/-- Either frame has the same events at any later time, and leaves the same device, store and
endpoint. -/
def Interchangeable (s : Scene size chunk σ φ ε) (transport : Transport ε) (f g : Bytes) : Prop :=
  ∀ bs : List (Action σ ε),
    let one := Action.request (.frame transport f) :: bs
    let other := Action.request (.frame transport g) :: bs
    s.events one = s.events other ∧ (s.after one).device = (s.after other).device ∧
      (s.after one).endpoint? = (s.after other).endpoint?

private theorem interchangeable_of_alike (h : Packet.Alike f g) (s : Scene size chunk σ φ ε)
    (transport : Transport ε) : s.Interchangeable transport f g := by
  intro bs one other
  have hact : (s.act (.request (.frame transport f))).1 =
      (s.act (.request (.frame transport g))).1 ∧
      Indistinct (s.act (.request (.frame transport f))).2
        (s.act (.request (.frame transport g))).2 := by
    cases hhand : s.hand with
    | free e =>
      have hroutine : (Request.frame transport f).routine e s.device =
          (Request.frame transport g).routine e s.device := by
        rw [Request.routine_frame, Request.routine_frame, Conduct.serve_congr h]
      rw [act_request hhand, act_request hhand, hroutine]
      exact indistinct_settle _ _ e _
    | busy r e pause resume =>
      rw [act_request_busy hhand, act_request_busy hhand]
      exact ⟨rfl, .refl s⟩
  obtain ⟨hevents, hlast⟩ := hact.2.after bs
  exact ⟨congrArg₂ List.cons hact.1 hevents, hlast.device_eq, hlast.endpoint?_eq⟩

/-- Two frames with one header do the same if their payloads agree up to the first zero byte or the
end, for the commands that take a path, and whatever their payloads are, for those that take
nothing. So a frame does what the report does that it is sent in, zeros behind it. The store may be
any, so also one that writes down its calls. -/
theorem payload_ends_at_zero (s : Scene size chunk σ φ ε) (transport : Transport ε) :
    (∀ (p : Packet) a b, a.length ≤ Packet.maxPayload → b.length ≤ Packet.maxPayload →
      p.command.heeds a = p.command.heeds b →
      (∀ e : Endpoint chunk φ,
        (e.dispatch transport (p.header ++ a) : Routine (Device size σ φ) (Served chunk φ ε)) =
          e.dispatch transport (p.header ++ b)) ∧
      s.Interchangeable transport (p.header ++ a) (p.header ++ b)) ∧
    (∀ p : Packet, p.payload.length ≤ Packet.maxPayload → p.command.verbatim = false →
      (∀ e : Endpoint chunk φ,
        (e.dispatch transport p.frame : Routine (Device size σ φ) (Served chunk φ ε)) =
          e.dispatch transport (p.frame.padTo reportSize)) ∧
      s.Interchangeable transport p.frame (p.frame.padTo reportSize)) := by
  refine ⟨fun p a b ha hb hheeds => ?_, fun p hp hc => ?_⟩
  · have halike : Packet.Alike (p.header ++ a) (p.header ++ b) := Packet.alike_header ha hb hheeds
    exact ⟨fun e => Endpoint.dispatch_congr halike e transport,
      interchangeable_of_alike halike s transport⟩
  · have halike : Packet.Alike p.frame (p.frame.padTo reportSize) := Packet.alike_padTo hp hc
    exact ⟨fun e => Endpoint.dispatch_congr halike e transport,
      interchangeable_of_alike halike s transport⟩

/-- A directory is entered by its name, by its name with other bytes behind a zero, and by a whole
report; the store sees the same two calls. -/
theorem entered_whatever_follows :
    let volume := (Volume.fresh 1 16).put [Bytes.ofText "d"] .dir
    let s : Scene 2 2 (Recorded Volume) (Ticket FileHandle) Unit :=
      initial { paths := .relative } ⟨1, 1⟩ (.ofStore volume)
    let p : Packet := ⟨.cd, 7, Bytes.ofText "d"⟩
    let trailing := p.header ++ (Bytes.ofText "d" ++ [0, 0x2F, 0xFF])
    let entered (bytes : Bytes) := s.after [.request (.frame .instant bytes)]
    s.Interchangeable .instant p.frame trailing ∧
    s.Interchangeable .instant p.frame (p.frame.padTo reportSize) ∧
    (entered trailing).endpoint?.map (·.cwd) = some (Bytes.ofText "/d") ∧
    (entered trailing).device.store.calls = [⟨.closeDir, some 0⟩, ⟨.openDir, some 0⟩] := by
  intro volume s p trailing entered
  have hheeds : p.command.heeds (Bytes.ofText "d") =
      p.command.heeds (Bytes.ofText "d" ++ [0, 0x2F, 0xFF]) := by
    decide +kernel
  have hs := payload_ends_at_zero s .instant
  exact ⟨(hs.1 p _ _ (by decide +kernel) (by decide +kernel) hheeds).2,
    (hs.2 p (by decide +kernel) rfl).2, by decide +kernel, by decide +kernel⟩

end Scene

end PanelLink
