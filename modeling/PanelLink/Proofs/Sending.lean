import PanelLink.Proofs.Handler
import PanelLink.Proofs.Undisturbed

/-!
Replies to a host that takes every one of them: how long they keep a command waiting, and the pieces
of a file that they carry.
-/
namespace PanelLink

/-! ## Waiting -/

namespace Run

variable {ω α β : Type} {R : Pause → ω → ω → Prop} {Q : α → ω → Prop} {Q' : β → ω → Prop}
  {r : Run ω α} {m n : Nat}

/-- The run waits for at most `n` deliveries, and then `Q` holds. -/
def Within (R : Pause → ω → ω → Prop) (Q : α → ω → Prop) : Nat → Run ω α → Prop
  | _, done a w => Q a w
  | 0, paused _ _ _ => False
  | n + 1, paused p w k => p = .delivery ∧ ∀ w', R p w w' → Within R Q n (k w')

theorem within_done (a : α) (w : ω) : (done a w).Within R Q n ↔ Q a w := by
  cases n <;> rfl

theorem Within.mono (h : r.Within R Q m) (hmn : m ≤ n) : r.Within R Q n := by
  induction r generalizing m n with
  | done a w => exact (within_done a w).mpr ((within_done a w).mp h)
  | paused p w k ih =>
    cases m with
    | zero => exact h.elim
    | succ m =>
      obtain ⟨n, rfl⟩ : ∃ n', n = n' + 1 := ⟨n - 1, by omega⟩
      exact ⟨h.1, fun w' hw => ih w' (h.2 w' hw) (by omega)⟩

theorem Within.imp {Q' : α → ω → Prop} (h : r.Within R Q n) (hQ : ∀ a w, Q a w → Q' a w) :
    r.Within R Q' n := by
  induction r generalizing n with
  | done a w => exact (within_done a w).mpr (hQ a w ((within_done a w).mp h))
  | paused p w k ih =>
    cases n with
    | zero => exact h.elim
    | succ n => exact ⟨h.1, fun w' hw => ih w' (h.2 w' hw)⟩

theorem Within.bind {f : α → ω → Run ω β} (h : r.Within R Q m)
    (hf : ∀ a w, Q a w → (f a w).Within R Q' n) : (r.bind f).Within R Q' (m + n) := by
  induction r generalizing m with
  | done a w =>
    have hrest := hf a w ((within_done a w).mp h)
    exact hrest.mono (by omega)
  | paused p w k ih =>
    cases m with
    | zero => exact h.elim
    | succ m =>
      rw [Nat.add_right_comm]
      exact ⟨h.1, fun w' hw => ih w' (h.2 w' hw)⟩

theorem Within.next {f : α → ω → Run ω β} (h : r.Within R Q n)
    (hf : ∀ a w, Q a w → (f a w).Within R Q' 0) : (r.bind f).Within R Q' n :=
  h.bind hf

end Run

/-! ## A host that takes every reply -/

variable {size chunk : Nat} {ι ε : Type}

def Transport.waits (t : Transport ε) (n : Nat) : Nat :=
  if t.slow then n else 0

theorem Transport.waits_le (t : Transport ε) {a b n : Nat} (h : a + b ≤ n) :
    t.waits a + t.waits b ≤ t.waits n := by
  unfold waits
  split <;> omega

namespace Outbox

variable {o : Outbox ε}

/-- None of the replies was refused, and none will be. -/
structure Free (o : Outbox ε) : Prop where
  unbroken : o.failure = none
  accepts (n : Nat) : o.transport.refuse n = none

def took (o : Outbox ε) (rs : List Reply) : Outbox ε :=
  { o with attempts := o.attempts + rs.length, sent := o.sent ++ rs }

theorem Free.took (h : o.Free) (rs : List Reply) : (o.took rs).Free :=
  ⟨h.unbroken, h.accepts⟩

theorem Free.post_eq (h : o.Free) (r : Reply) : o.post r = (true, o.took [r]) := by
  obtain ⟨transport, sent, attempts, failure⟩ := o
  obtain ⟨hunbroken, haccepts⟩ := h
  dsimp only at hunbroken haccepts
  simp [post, Outbox.took, hunbroken, haccepts]

theorem took_nil (o : Outbox ε) : o.took [] = o := by
  simp [took]

theorem took_took (o : Outbox ε) (rs rs' : List Reply) :
    (o.took rs).took rs' = o.took (rs ++ rs') := by
  simp [took, Nat.add_assoc]

end Outbox

variable {σ φ δ : Type} {R : Pause → Device size σ φ → Device size σ φ → Prop}
  {P : Device size σ φ → Prop} {s : Serving chunk φ ε} {d : Device size σ φ}

/-- A reply is through: at once, or at the end of a pause. -/
def Transport.Delivers (t : Transport ε) (R : Pause → Device size σ φ → Device size σ φ → Prop)
    (d w : Device size σ φ) : Prop :=
  if t.slow then R .delivery d w else w = d

theorem Transport.Delivers.keeps {t : Transport ε} {w : Device size σ φ} (h : t.Delivers R d w)
    (hP : P d) (hR : ∀ w, R .delivery d w → P w) : P w := by
  unfold Delivers at h
  split at h
  · exact hR w h
  · rw [h]
    exact hP

theorem Conduct.post_delivers (ho : s.outbox.Free) (r : Reply) :
    (Conduct.on (post r) s d).Within R
      (fun x w => x = (true, { s with outbox := s.outbox.took [r] }) ∧
        s.outbox.transport.Delivers R d w)
      (s.outbox.transport.waits 1) := by
  rw [on_post, ho.post_eq]
  unfold Transport.waits Transport.Delivers
  cases s.outbox.transport.slow with
  | false => exact ⟨rfl, rfl⟩
  | true => exact ⟨rfl, fun w hw => ⟨rfl, hw⟩⟩

theorem Handler.send_delivers (ho : s.outbox.Free) (r : Reply) :
    (Handler.on (send r) s d).Within R
      (fun x w => x = (.ok (), { s with outbox := s.outbox.took [r] }) ∧
        s.outbox.transport.Delivers R d w)
      (s.outbox.transport.waits 1) := by
  unfold send
  rw [on_bind, on_always, Run.bind_bind]
  refine (Conduct.post_delivers ho r).next fun x w hx => ?_
  obtain ⟨rfl, hw⟩ := hx
  exact ⟨rfl, hw⟩

theorem Handler.send_within (ho : s.outbox.Free) (hP : P d)
    (hR : ∀ w, R .delivery d w → P w) (r : Reply) :
    (Handler.on (send r) s d).Within R
      (fun x w => x = (.ok (), { s with outbox := s.outbox.took [r] }) ∧ P w)
      (s.outbox.transport.waits 1) :=
  (send_delivers ho r).imp fun _ _ hx => ⟨hx.1, hx.2.keeps hP hR⟩

theorem Conduct.conclude_delivers (ho : s.outbox.Free) (result : Except CommandError Reply) :
    (Conduct.on (conclude result) s d).Within R
      (fun x w => x = (.ok (finalReply result).status,
          { s with outbox := s.outbox.took [finalReply result] }) ∧
        s.outbox.transport.Delivers R d w)
      (s.outbox.transport.waits 1) := by
  rw [on_conclude, ho.unbroken]
  dsimp only
  rw [on_finish]
  refine (post_delivers ho (finalReply result)).next fun x w hx => ?_
  obtain ⟨rfl, hw⟩ := hx
  have hunbroken := (ho.took [finalReply result]).unbroken
  rw [Run.within_done]
  dsimp only
  rw [hunbroken]
  exact ⟨rfl, hw⟩

theorem Conduct.conclude_within (ho : s.outbox.Free) (result : Except CommandError Reply) :
    (Conduct.on (conclude result) s d).Within R
      (fun x _ => x = (.ok (finalReply result).status,
        { s with outbox := s.outbox.took [finalReply result] }))
      (s.outbox.transport.waits 1) :=
  (conclude_delivers ho result).imp fun _ _ hx => hx.1

/-! ## Pieces of a file -/

def Reply.piece (r : Reply) : Bytes :=
  match r.payload with
  | [] => []
  | n :: bytes => bytes.take n.toNat

/-- The replies carry the bytes, each of them a piece behind its length. -/
structure Pieces (bytes : Bytes) (rs : List Reply) : Prop where
  whole : rs.flatMap Reply.piece = bytes
  each (r : Reply) : r ∈ rs → r = ⟨.success, UInt8.ofNat r.piece.length :: r.piece⟩ ∧ r.piece ≠ [] ∧
    r.piece.length ≤ Handler.pieceSize

theorem Handler.pieceReply_eq {bytes : Bytes} (h : bytes.length ≤ pieceSize) :
    pieceReply bytes = .ok ⟨.success, UInt8.ofNat bytes.length :: bytes⟩ := by
  have hpush :
      done.push (UInt8.ofNat bytes.length) = .ok ⟨.success, [UInt8.ofNat bytes.length]⟩ := rfl
  have hroom : ¬ Reply.capacity - 1 < bytes.length := Nat.not_lt.mpr h
  have happend : (⟨.success, [UInt8.ofNat bytes.length]⟩ : Reply).append bytes =
      .ok ⟨.success, UInt8.ofNat bytes.length :: bytes⟩ := if_neg hroom
  show (done.push (UInt8.ofNat bytes.length)).bind (·.append bytes) = _
  rw [hpush]
  exact happend

private theorem Reply.piece_eq {bytes : Bytes} (h : bytes.length ≤ Handler.pieceSize) :
    (⟨.success, UInt8.ofNat bytes.length :: bytes⟩ : Reply).piece = bytes := by
  have hlt : bytes.length < 256 := Nat.lt_of_le_of_lt h (by decide)
  have htake : (UInt8.ofNat bytes.length).toNat = bytes.length := by
    rw [UInt8.toNat_ofNat']
    exact Nat.mod_eq_of_lt hlt
  show bytes.take (UInt8.ofNat bytes.length).toNat = bytes
  rw [htake, List.take_length]

theorem Pieces.nil : Pieces [] [] :=
  ⟨rfl, nofun⟩

theorem Pieces.cons {bytes more : Bytes} {rs : List Reply} (h : Pieces more rs) (hne : bytes ≠ [])
    (hle : bytes.length ≤ Handler.pieceSize) :
    Pieces (bytes ++ more) (⟨.success, UInt8.ofNat bytes.length :: bytes⟩ :: rs) := by
  have hpiece := Reply.piece_eq hle
  constructor
  · rw [List.flatMap_cons, hpiece, h.whole]
  · intro r hr
    obtain rfl | hr := List.mem_cons.mp hr
    · rw [hpiece]
      exact ⟨rfl, hne, hle⟩
    · exact h.each r hr

/-! ## The file -/

namespace Handler

variable [FileStore σ φ δ]

theorem on_sendPieces (n : Nat) (f : φ) :
    (sendPieces (n + 1) f).on s d =
      match FileStore.read d.store f pieceSize with
      | (.error x, f, t) => .done ((.error (.storage x), f), s) { d with store := t }
      | (.ok [], f, t) => .done ((.ok (), f), s) { d with store := t }
      | (.ok bytes, f, t) =>
        match pieceReply bytes with
        | .error x => .done ((.error (.ofReplyFull x), f), s) { d with store := t }
        | .ok reply => (Handler.on (send reply) s { d with store := t }).bind fun x w =>
          match x.1 with
          | .error c => .done ((.error c, f), x.2) w
          | .ok () => (sendPieces n f).on x.2 w := by
  rw [sendPieces, Conduct.on_bind, Conduct.on_onStore]
  simp only [Run.done_bind]
  rcases FileStore.read d.store f pieceSize with ⟨x | _ | ⟨b, bs⟩, f, t⟩
  · rfl
  · rfl
  · dsimp only
    cases pieceReply (b :: bs) with
    | error x => rfl
    | ok reply =>
      dsimp only
      rw [Conduct.on_bind, Conduct.on_run]
      congr 1
      funext x w
      rcases x with ⟨_ | _, x⟩ <;> rfl

theorem on_sendPieces_nil {n : Nat} {f f' : φ} {t : σ}
    (h : FileStore.read d.store f pieceSize = (.ok [], f', t)) :
    (sendPieces (n + 1) f).on s d = .done ((.ok (), f'), s) { d with store := t } := by
  rw [on_sendPieces, h]

theorem on_sendPieces_cons {n : Nat} {f f' : φ} {t : σ} {bytes : Bytes} {reply : Reply}
    (h : FileStore.read d.store f pieceSize = (.ok bytes, f', t)) (hne : bytes ≠ [])
    (hr : pieceReply bytes = .ok reply) :
    (sendPieces (n + 1) f).on s d =
      (Handler.on (send reply) s { d with store := t }).bind fun x w =>
      match x.1 with
      | .error e => .done ((.error e, f'), x.2) w
      | .ok () => (sendPieces n f').on x.2 w := by
  obtain ⟨b, bs, rfl⟩ := List.exists_cons_of_ne_nil hne
  rw [on_sendPieces, h]
  dsimp only
  rw [hr]

theorem on_cat {payload path : Bytes} {f : φ} {t : σ} (hp : s.endpoint.pathOf payload = .ok path)
    (ho : FileStore.openFile d.store path .reading = (.ok f, t)) :
    Handler.on (cat payload) s d =
      ((sendPieces (FileStore.bytesLeft t f + 1) f).on s { d with store := t, held := true }).bind
        fun x w => .done (do
            let _ ← x.1.1
            let _ ← (FileStore.closeFile w.store x.1.2).1.mapError .storage
            return done, x.2)
          { w with store := (FileStore.closeFile w.store x.1.2).2, held := false } := by
  unfold cat
  simp only [on_bind, on_pathArgument, hp, mapError_ok, Run.done_bind, next_ok, on_callStore, ho,
    on_always, Conduct.on_bind, Conduct.on_setHeld, Conduct.on_onStore, Conduct.on_pure,
    Run.bind_bind]
  congr 1
  funext x w
  rcases x with ⟨⟨_ | _, f⟩, x⟩
  · rfl
  · cases (FileStore.closeFile w.store f).1 with
    | error e => rfl
    | ok => rfl

end Handler

end PanelLink
