import PanelLink.Proofs.Contents
import PanelLink.Proofs.Ledger
import PanelLink.Proofs.Soundness

/-!
What a command of an upload comes to, whatever becomes of its answer: such a command sends nothing
before it is done, so the transport has no say in it.
-/
namespace PanelLink

variable {size chunk : Nat} {σ φ δ ε : Type} [FileStore σ φ δ]

/-- The result of a packet over a transport that refuses nothing, if it takes one stretch only. -/
def Endpoint.verdict? (e : Endpoint chunk φ) (d : Device size σ φ) (p : Packet) :
    Option (Except CommandError Reply) :=
  match (Handler.execute p : Handler size chunk σ φ Empty Reply).on ⟨e, .empty .instant⟩ d with
  | .done (result, _) _ => some result
  | .paused .. => none

def Endpoint.accepts (e : Endpoint chunk φ) (d : Device size σ φ) (p : Packet) : Bool :=
  match e.verdict? d p with
  | some (.ok _) => true
  | _ => false

def Endpoint.failure? (e : Endpoint chunk φ) (d : Device size σ φ) (p : Packet) :
    Option CommandError :=
  match e.verdict? d p with
  | some (.error x) => some x
  | _ => none

/-- The bytes that a request adds to the upload. -/
def Request.taken (e : Endpoint chunk φ) (d : Device size σ φ) : Request ε → Bytes
  | .frame _ bytes =>
    match Packet.decode bytes with
    | .ok p => if p.command = .writeFile && e.accepts d p then p.payload else []
    | .error _ => []
  | _ => []

/-- Only a write adds bytes. -/
theorem Request.taken_eq_nil {e : Endpoint chunk φ} {d : Device size σ φ} {r : Request ε}
    (h : ∀ transport bytes p, r = .frame transport bytes → Packet.decode bytes = .ok p →
      p.command ≠ .writeFile) : r.taken e d = [] := by
  unfold taken
  split
  · rename_i transport bytes
    split
    · rename_i p hp
      have hc := h transport bytes p rfl hp
      simp [hc]
    · rfl
  · rfl

namespace Scene

def taken (s : Scene size chunk σ φ ε) : Action σ ε → Bytes
  | .request r =>
    match s.hand with
    | .free e => r.taken e s.device
    | .busy .. => []
  | _ => []

def stream (s : Scene size chunk σ φ ε) : List (Action σ ε) → Bytes
  | [] => []
  | a :: as => s.taken a ++ (s.act a).2.stream as

/-- With the action the host sends the packet, and nothing is in hand. -/
def Hears (s : Scene size chunk σ φ ε) (a : Action σ ε) (e : Endpoint chunk φ) (p : Packet) :
    Prop :=
  s.hand = .free e ∧ ∃ transport bytes,
    a = .request (.frame transport bytes) ∧ Packet.decode bytes = .ok p

theorem Hears.act_eq {s : Scene size chunk σ φ ε} {a : Action σ ε} {e : Endpoint chunk φ}
    {p : Packet} (h : s.Hears a e p) : ∃ transport bytes, Packet.decode bytes = .ok p ∧
      s.act a = settle (.frame transport bytes) e
        ((Request.frame transport bytes).routine e s.device) := by
  obtain ⟨he, transport, bytes, rfl, hp⟩ := h
  exact ⟨transport, bytes, hp, act_request he _⟩

/-- With the action an upload to `path` begins. -/
def Opens (s : Scene size chunk σ φ ε) (a : Action σ ε) (path : Bytes) : Prop :=
  ∃ e p, s.Hears a e p ∧ p.command = .openFile ∧ e.pathOf p.payload = .ok path ∧
    e.accepts s.device p = true

end Scene

/-! ## The answer -/

/-- After a command its answer is taken or refused, and nothing else happens. -/
theorem Conduct.conclude_cases (result : Except CommandError Reply) (s : Serving chunk φ ε)
    (d : Device size σ φ) : ∃ answer o,
    (answer = .ok (finalReply result).status ∨ ∃ x, answer = .error x) ∧
    ((conclude result : Conduct size chunk σ φ ε _).on s d =
        .done (answer, { s with outbox := o }) d ∨
      (conclude result : Conduct size chunk σ φ ε _).on s d =
        .paused .delivery d (.done (answer, { s with outbox := o }))) := by
  rw [on_conclude]
  cases hf : s.outbox.failure with
  | some x => exact ⟨.error x, s.outbox, .inr ⟨x, rfl⟩, .inl rfl⟩
  | none =>
    dsimp only
    rw [on_finish, on_post]
    refine ⟨(s.outbox.post (finalReply result)).2.failure.elim (.ok (finalReply result).status)
      .error, (s.outbox.post (finalReply result)).2, ?_, ?_⟩
    · cases (s.outbox.post (finalReply result)).2.failure with
      | none => exact .inl rfl
      | some x => exact .inr ⟨x, rfl⟩
    · split
      · exact .inr rfl
      · exact .inl rfl

/-- The packet comes to the result in one stretch, whatever the transport. -/
def Endpoint.Yields (e : Endpoint chunk φ) (d : Device size σ φ) (p : Packet)
    (result : Except CommandError Reply) (e' : Endpoint chunk φ) (d' : Device size σ φ) : Prop :=
  ∀ (ε : Type) (o : Outbox ε), (Handler.execute p : Handler size chunk σ φ ε Reply).on ⟨e, o⟩ d =
    .done (result, ⟨e', o⟩) d'

namespace Endpoint.Yields

variable {e e' : Endpoint chunk φ} {d d' : Device size σ φ} {p : Packet}
  {result : Except CommandError Reply}

theorem verdict (h : e.Yields d p result e' d') : e.verdict? d p = some result := by
  unfold verdict?
  rw [h]

theorem accepts (h : e.Yields d p result e' d') : e.accepts d p = result.toBool := by
  unfold Endpoint.accepts
  rw [h.verdict]
  cases result <;> rfl

theorem failure {x : CommandError} (h : e.Yields d p (.error x) e' d') :
    e.failure? d p = some x := by
  unfold failure?
  rw [h.verdict]

theorem no_failure {r : Reply} (h : e.Yields d p (.ok r) e' d') : e.failure? d p = none := by
  unfold failure?
  rw [h.verdict]

variable {transport : Transport ε} {bytes : Bytes}

theorem taken (h : e.Yields d p result e' d') (hp : Packet.decode bytes = .ok p)
    (hc : p.command = .writeFile) :
    (Request.frame transport bytes).taken e d = if result.toBool then p.payload else [] := by
  simp only [Request.taken, hp, hc, h.accepts, decide_true, Bool.true_and]

/-- The run of a request that asks for it. -/
theorem routine_cases (h : e.Yields d p result e' d') (transport : Transport ε)
    (hp : Packet.decode bytes = .ok p) :
    ∃ answer replies, (answer = .ok (finalReply result).status ∨ ∃ x, answer = .error x) ∧
      ((Request.frame transport bytes).routine e d = .done (.served answer replies, e') d' ∨
        (Request.frame transport bytes).routine e d =
          .paused .delivery d' (.done (.served answer replies, e'))) := by
  obtain ⟨answer, o, hanswer, hrun⟩ :=
    Conduct.conclude_cases result ⟨e', .empty transport⟩ d'
  refine ⟨answer, o.sent, hanswer, ?_⟩
  rw [Request.routine_frame, Conduct.on_serve _ _ hp, h]
  obtain hrun | hrun := hrun
  · exact .inl (by rw [Run.done_bind, hrun]; rfl)
  · exact .inr (by rw [Run.done_bind, hrun]; rfl)

/-- What holds with the result, and while its answer is delivered, holds where the run ends. -/
theorem meets (h : e.Yields d p result e' d') (hp : Packet.decode bytes = .ok p)
    {R T : Pause → Device size σ φ → Device size σ φ → Prop}
    {P : Endpoint chunk φ → Device size σ φ → Prop} (hP : P e' d') (hT : T .delivery d d')
    (hR : ∀ w, R .delivery d' w → P e' w) :
    ((Request.frame transport bytes).routine e d).Meets R T (fun _ x w => P x.2 w) d := by
  obtain ⟨answer, replies, -, hrun | hrun⟩ := h.routine_cases transport hp
  · rw [hrun]
    exact hP
  · rw [hrun]
    exact ⟨hT, fun w hw => hR w hw⟩

end Endpoint.Yields

/-! ## The commands of an upload -/

section

variable {e : Endpoint chunk φ} {d : Device size σ φ} {p : Packet} {w w' : WriteSession chunk φ}
  {f : φ} {path : Bytes} {t : σ} {x : CommandError}

open Handler

theorem yields_openFile (hc : p.command = .openFile) (hp : e.pathOf p.payload = .ok path)
    (hu : e.upload = none) (ho : FileStore.openFile d.store path .appending = (.ok f, t)) :
    e.Yields d p (.ok Handler.done) { e with upload := some (.ofFile f) }
      { d with store := t } := by
  intro ε o
  simp only [execute, hc, on_openFile, hp, hu, ho, Option.isSome_none, Bool.false_eq_true, if_false]

theorem yields_openFile_failed {y : StorageError} (hc : p.command = .openFile)
    (hp : e.pathOf p.payload = .ok path) (hu : e.upload = none)
    (ho : FileStore.openFile d.store path .appending = (.error y, t)) :
    e.Yields d p (.error (.storage y)) e { d with store := t } := by
  intro ε o
  simp only [execute, hc, on_openFile, hp, hu, ho, Option.isSome_none, Bool.false_eq_true, if_false]

theorem yields_openFile_nowhere {y : ValidationError} (hc : p.command = .openFile)
    (hp : e.pathOf p.payload = .error y) : e.Yields d p (.error (.validation y)) e d := by
  intro ε o
  simp only [execute, hc, on_openFile, hp]

/-- While an upload goes on no other begins. -/
theorem yields_openFile_again (hc : p.command = .openFile) (hu : e.upload = some w) :
    ∃ x, e.Yields d p (.error x) e d := by
  cases hp : e.pathOf p.payload with
  | error x => exact ⟨.validation x, yields_openFile_nowhere hc hp⟩
  | ok path =>
    refine ⟨.alreadyOpen, fun ε o => ?_⟩
    simp only [execute, hc, on_openFile, hp, hu, Option.isSome_some, if_true]

theorem yields_writeFile (hc : p.command = .writeFile) (hp : p.payload ≠ [])
    (hu : e.upload = some w)
    (hw : w.write d.store p.id p.payload e.config.enforceSequence = (.ok (), w', t)) :
    e.Yields d p (.ok Handler.done) { e with upload := some w' } { d with store := t } := by
  intro ε o
  simp only [execute, hc, on_writeFile, if_neg hp, hu, hw]

theorem yields_writeFile_nothing (hc : p.command = .writeFile) (hp : p.payload = []) :
    e.Yields d p (.error (.validation .insufficientData)) e d := by
  intro ε o
  simp only [execute, hc, on_writeFile, if_pos hp]

theorem yields_writeFile_idle (hc : p.command = .writeFile) (hp : p.payload ≠ [])
    (hu : e.upload = none) : e.Yields d p (.error .notOpen) e d := by
  intro ε o
  simp only [execute, hc, on_writeFile, if_neg hp, hu]

theorem yields_writeFile_refused (hc : p.command = .writeFile) (hp : p.payload ≠ [])
    (hu : e.upload = some w) (hx : x.isStorage = false)
    (hw : w.write d.store p.id p.payload e.config.enforceSequence = (.error x, w', t)) :
    e.Yields d p (.error x) { e with upload := some w' } { d with store := t } := by
  intro ε o
  simp only [execute, hc, on_writeFile, if_neg hp, hu, hw, hx, Bool.false_eq_true, if_false]

theorem yields_writeFile_failed (hc : p.command = .writeFile) (hp : p.payload ≠ [])
    (hu : e.upload = some w) (hx : x.isStorage = true)
    (hw : w.write d.store p.id p.payload e.config.enforceSequence = (.error x, w', t)) :
    e.Yields d p (.error x) { e with upload := none }
      { d with store := (FileStore.closeFile t w'.file).2 } := by
  intro ε o
  simp only [execute, hc, on_writeFile, if_neg hp, hu, hw, hx, if_true]
  rfl

theorem yields_closeFile (hc : p.command = .closeFile) (hu : e.upload = some w) :
    e.Yields d p ((w.close d.store).1.map fun _ => Handler.done) { e with upload := none }
      { d with store := (w.close d.store).2 } := by
  intro ε o
  simp only [execute, hc, on_closeFile, hu]

theorem yields_closeFile_idle (hc : p.command = .closeFile) (hu : e.upload = none) :
    e.Yields d p (.error .notOpen) e d := by
  intro ε o
  simp only [execute, hc, on_closeFile, hu]

theorem yields_rm (hc : p.command = .rm) :
    ∃ result, e.Yields d p result e d ∨
      ∃ path, e.pathOf p.payload = .ok path ∧
        e.Yields d p result e { d with store := (FileStore.remove d.store path).2 } := by
  cases hp : e.pathOf p.payload with
  | error x =>
    refine ⟨.error (.validation x), .inl fun ε o => ?_⟩
    simp only [execute, hc, on_rm, hp]
  | ok path =>
    rcases hr : FileStore.remove d.store path with ⟨x | _, t⟩
    · refine ⟨.error (.storage x), .inr ⟨path, rfl, fun ε o => ?_⟩⟩
      simp only [execute, hc, on_rm, hp, hr]
    · refine ⟨.ok Handler.done, .inr ⟨path, rfl, fun ε o => ?_⟩⟩
      simp only [execute, hc, on_rm, hp, hr]

/-- An upload that begins has its file opened for appending. -/
theorem accepts_openFile (hc : p.command = .openFile) (hp : e.pathOf p.payload = .ok path)
    (ha : e.accepts d p = true) : e.upload = none ∧ ∃ f t,
      FileStore.openFile d.store path .appending = (.ok f, t) ∧
      e.Yields d p (.ok Handler.done) { e with upload := some (.ofFile f) }
        { d with store := t } := by
  cases hu : e.upload with
  | some w =>
    obtain ⟨x, hy⟩ := yields_openFile_again (d := d) hc hu
    simp [hy.accepts, Except.toBool] at ha
  | none =>
    rcases ho : FileStore.openFile d.store path .appending with ⟨x | f, t⟩
    · have hy := yields_openFile_failed hc hp hu ho
      simp [hy.accepts, Except.toBool] at ha
    · exact ⟨rfl, f, t, rfl, yields_openFile hc hp hu ho⟩

end

theorem Scene.Hears.act_device {s : Scene size chunk σ φ ε} {a : Action σ ε}
    {e e' : Endpoint chunk φ} {d' : Device size σ φ} {p : Packet}
    {result : Except CommandError Reply} (h : s.Hears a e p)
    (hy : e.Yields s.device p result e' d') : (s.act a).2.device = d' := by
  obtain ⟨transport, bytes, hp, hact⟩ := h.act_eq
  rw [hact]
  obtain ⟨answer, replies, -, hrun | hrun⟩ := hy.routine_cases transport hp
  · rw [hrun]
    rfl
  · rw [hrun]
    rfl

end PanelLink
