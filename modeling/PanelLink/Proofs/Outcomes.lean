import PanelLink.Proofs.Reaching
import PanelLink.Proofs.Replies

/-!
What comes of a command. Either its input is rejected before it does anything, whatever the device
is like, or none of its failures is a rejection; it then sends only replies that it may send before
its last one, and its result has room in a reply.
-/
namespace PanelLink

open Handler

variable {size chunk : Nat} {σ φ δ ε α β : Type}

/-- The failures that tell what is wrong with the input itself. -/
def CommandError.rejects : CommandError → Bool
  | protocol _ => true
  | validation _ => true
  | _ => false

/-- A reply that a command may send before its last one: a piece of a file behind its length, or a
part of a split listing. -/
structure Reply.Data (config : Config) (command : Command) (r : Reply) : Prop where
  status : r.status = .success
  filled : r.payload ≠ []
  fits : r.payload.length ≤ Reply.capacity
  kind : (command = .cat ∧ ∃ piece, r.payload = UInt8.ofNat piece.length :: piece ∧
      1 ≤ piece.length ∧ piece.length ≤ pieceSize) ∨
    (command = .ls ∧ config.listing = .split)

/-- The result satisfies `A`, or the failure is no rejection. -/
def Fulfils (A : α → Prop) : Except CommandError α → Prop
  | .ok a => A a
  | .error c => c.rejects = false

theorem Fulfils.imp {A B : α → Prop} {x : Except CommandError α} (h : Fulfils A x)
    (hAB : ∀ a, A a → B a) : Fulfils B x := by
  cases x with
  | ok a => exact hAB a h
  | error c => exact h

theorem Fulfils.map {A : α → Prop} {B : β → Prop} {x : Except CommandError α} (h : Fulfils A x)
    {f : α → β} (hf : ∀ a, A a → B (f a)) : Fulfils B (x.map f) := by
  cases x with
  | ok a => exact hf a h
  | error c => exact h

theorem fulfils_storage (x : Except StorageError α) :
    Fulfils (fun _ => True) (x.mapError CommandError.storage) := by
  cases x with
  | ok a => trivial
  | error c => rfl

structure Serving.Sends (t : Transport ε) (config : Config) (command : Command)
    (s : Serving chunk φ ε) : Prop where
  transport : s.outbox.transport = t
  unbroken : (∀ n, t.refuse n = none) → s.outbox.failure = none
  settings : s.endpoint.config = config
  data (r : Reply) : r ∈ s.outbox.sent → r.Data config command

structure Outcome (t : Transport ε) (config : Config) (command : Command)
    (x : Except CommandError Reply × Serving chunk φ ε) : Prop where
  sends : x.2.Sends t config command
  fits : Fulfils (fun r => r.payload.length ≤ Reply.capacity) x.1

section

variable {t : Transport ε} {config : Config} {command : Command} {s : Serving chunk φ ε}

theorem Serving.Sends.empty (t : Transport ε) (e : Endpoint chunk φ) (command : Command) :
    (⟨e, .empty t⟩ : Serving chunk φ ε).Sends t e.config command where
  transport := rfl
  unbroken _ := rfl
  settings := rfl
  data := by simp [Outbox.empty]

theorem Serving.Sends.endpoint (h : s.Sends t config command) {e : Endpoint chunk φ}
    (he : e.config = s.endpoint.config) : ({ s with endpoint := e }).Sends t config command :=
  ⟨h.transport, h.unbroken, he.trans h.settings, h.data⟩

theorem Serving.Sends.post (h : s.Sends t config command) {r : Reply} (hr : r.Data config command) :
    ({ s with outbox := (s.outbox.post r).2 }).Sends t config command := by
  obtain ⟨htransport, hunbroken, hsettings, hdata⟩ := h
  unfold Outbox.post
  split
  · exact ⟨htransport, hunbroken, hsettings, hdata⟩
  · split
    · rename_i x hx
      refine ⟨htransport, fun ht => ?_, hsettings, hdata⟩
      rw [htransport, ht] at hx
      cases hx
    · refine ⟨htransport, hunbroken, hsettings, fun q hq => ?_⟩
      obtain hq | hq := List.mem_append.mp hq
      · exact hdata q hq
      · rw [List.mem_singleton.mp hq]
        exact hr

end

/-! ## Parts of a command -/

namespace Handler

variable {R : Pause → Device size σ φ → Device size σ φ → Prop} {t : Transport ε} {config : Config}
  {command : Command}

/-- The part sends only what the command may send; its result satisfies `A`, or it fails without a
rejection. -/
def Gives (R : Pause → Device size σ φ → Device size σ φ → Prop) (t : Transport ε) (config : Config)
    (command : Command) (h : Handler size chunk σ φ ε α) (A : α → Prop) : Prop :=
  Conduct.Triple R anyhow (fun _ s _ => s.Sends t config command) h.run
    fun x _ s _ => s.Sends t config command ∧ Fulfils A x

namespace Gives

variable {h : Handler size chunk σ φ ε α} {A : α → Prop} {B : β → Prop}

protected theorem bind {f : α → Handler size chunk σ φ ε β} (hh : Gives R t config command h A)
    (hf : ∀ a, A a → Gives R t config command (f a) B) : Gives R t config command (h >>= f) B := by
  intro v s d hs
  rw [Conduct.on_run, on_bind, Run.meets_bind]
  refine (hh v s d hs).imp fun v x w hx => ?_
  obtain ⟨c | a, s⟩ := x
  · exact hx
  · exact hf a hx.2 v s w hx.1

protected theorem pure {a : α} (ha : A a) :
    Gives R t config command (pure a : Handler size chunk σ φ ε α) A :=
  fun _ _ _ hs => ⟨hs, ha⟩

theorem endpoint :
    Gives R t config command (Handler.endpoint : Handler size chunk σ φ ε _)
      fun e => e.config = config :=
  fun _ _ _ hs => ⟨hs, hs.settings⟩

/-- A reply is sent that the command may send. -/
theorem send {r : Reply} (hr : r.Data config command) :
    Gives R t config command (Handler.send r : Handler size chunk σ φ ε Unit) fun _ => True := by
  intro v s d hs
  have hpost := hs.post hr
  have hdone (v w : Device size σ φ) :
      ((Handler.next (fun b => if !b then throw .transport else pure ())
        (.ok (s.outbox.post r).1, { s with outbox := (s.outbox.post r).2 }) w).Meets R anyhow
        (fun _ x _ => x.2.Sends t config command ∧ Fulfils (fun _ => True) x.1) v) := by
    rw [next_ok]
    cases (s.outbox.post r).1 with
    | true => exact ⟨hpost, trivial⟩
    | false => exact ⟨hpost, rfl⟩
  rw [Conduct.on_run, Handler.send, on_bind, on_always, Conduct.on_post]
  split
  · constructor
    · trivial
    · exact fun w _ => hdone w w
  · exact hdone v d

theorem ofExcept {γ : Type} {cause : γ → CommandError} {x : Except γ α}
    (hx : Fulfils A (x.mapError cause)) :
    Gives R t config command (Handler.ofExcept cause x : Handler size chunk σ φ ε α) A := by
  intro v s d hs
  rw [Conduct.on_run, on_ofExcept]
  exact ⟨hs, hx⟩

theorem callStore (f : σ → Except StorageError α × σ) :
    Gives R t config command (Handler.callStore f : Handler size chunk σ φ ε α) fun _ => True := by
  intro v s d hs
  rw [Conduct.on_run, on_callStore]
  exact ⟨hs, fulfils_storage _⟩

theorem always {c : Conduct size chunk σ φ ε α}
    (hc : Conduct.Triple R anyhow (fun _ s _ => s.Sends t config command) c
      fun a _ s _ => s.Sends t config command ∧ A a) :
    Gives R t config command (Handler.always c) A := by
  intro v s d hs
  rw [Conduct.on_run, on_always, Run.meets_bind]
  exact hc v s d hs

end Gives

end Handler

/-! ## Replies that may be sent -/

namespace Reply

variable {r : Reply} {bytes : Bytes}

/-- A part of a split listing that is not empty may go out before the last one. -/
theorem data_ls {config : Config} (hs : r.status = .success) (hne : r.payload ≠ [])
    (hfits : r.payload.length ≤ capacity) (hsplit : config.listing = .split) :
    r.Data config .ls :=
  ⟨hs, hne, hfits, .inr ⟨rfl, hsplit⟩⟩

theorem data_cat {config : Config} (hne : bytes ≠ []) (hle : bytes.length ≤ pieceSize) :
    (⟨.success, UInt8.ofNat bytes.length :: bytes⟩ : Reply).Data config .cat where
  status := rfl
  filled := List.cons_ne_nil _ _
  fits := by
    have hsize : pieceSize + 1 = capacity := rfl
    simp only [List.length_cons]
    omega
  kind := by
    have hpos : 1 ≤ bytes.length := List.length_pos_iff.mpr hne
    exact .inl ⟨rfl, bytes, rfl, hpos, hle⟩

end Reply

/-! ## Listing -/

namespace Handler

variable {R : Pause → Device size σ φ → Device size σ φ → Prop} {t : Transport ε} {config : Config}

def Listed (r : Reply) : Prop :=
  r.status = .success ∧ r.payload.length ≤ Reply.capacity

theorem listed_done : Listed done :=
  ⟨rfl, Nat.zero_le _⟩

theorem Listed.clear {r : Reply} (h : Listed r) : Listed r.clear :=
  ⟨h.1, Nat.zero_le _⟩

/-- Bytes that fit stay in the reply; others need a listing that is split. -/
theorem spill_gives (bytes : Bytes) (r : Reply) (hr : Listed r)
    (hroom : config.listing = .split ∨ bytes.length ≤ r.remaining) :
    Gives R t config .ls (spill bytes r : Handler size chunk σ φ ε Reply) Listed := by
  induction bytes generalizing r with
  | nil => exact Gives.pure hr
  | cons b bs ih =>
    have hlength : (b :: bs).length = bs.length + 1 := rfl
    unfold spill
    split
    · rename_i q hq
      obtain ⟨hstatus, hpayload, hlt⟩ := Reply.push_ok hq
      have hgrown : q.payload.length = r.payload.length + 1 := by
        rw [hpayload, List.length_append, List.length_singleton]
      have hq : Listed q := ⟨hstatus.trans hr.1, by omega⟩
      refine ih q hq (hroom.imp_right fun hle => ?_)
      unfold Reply.remaining at hle ⊢
      omega
    · rename_i x hx
      have hfull : Reply.capacity ≤ r.payload.length := Reply.push_error hx
      have hsplit : config.listing = .split := by
        refine hroom.resolve_right fun hle => ?_
        unfold Reply.remaining at hle
        omega
      have hne : r.payload ≠ [] := by
        intro hnil
        rw [hnil] at hfull
        exact absurd hfull (by decide)
      have hdata : r.Data config .ls := Reply.data_ls hr.1 hne hr.2 hsplit
      refine (Gives.send hdata).bind fun _ _ => ?_
      have hfresh : r.clear.push b = .ok ⟨r.status, [b]⟩ := rfl
      have hlisted : Listed ⟨r.status, [b]⟩ := ⟨hr.1, by simp [Reply.capacity, reportSize]⟩
      rw [hfresh]
      refine (Gives.pure hlisted).bind fun q hq => ?_
      exact ih q hq (.inl hsplit)

private theorem appendEntry_gives (e : DirEntry) (r : Reply) (hr : Listed r) :
    Gives R t config .ls (appendEntry config.listing e r : Handler size chunk σ φ ε (Option Reply))
      fun q => ∀ r, q = some r → Listed r := by
  have hsome (r : Reply) (hr : Listed r)
      (hroom : config.listing = .split ∨ (entryLine e).length ≤ r.remaining) :
      Gives R t config .ls
        (some <$> spill (entryLine e) r : Handler size chunk σ φ ε (Option Reply))
        fun q => ∀ r, q = some r → Listed r := by
    rw [map_eq_pure_bind]
    refine (spill_gives _ r hr hroom).bind fun q hq => Gives.pure ?_
    intro q' hq'
    rwa [← Option.some.inj hq']
  unfold appendEntry
  dsimp only
  split
  · rename_i hle
    exact hsome r hr (.inr hle)
  · split
    · exact Gives.pure nofun
    · rename_i hsplit
      split
      · exact hsome r hr (.inl hsplit)
      · rename_i hne
        have hfilled : r.payload ≠ [] := by simpa [Reply.isEmpty] using hne
        have hdata : r.Data config .ls := Reply.data_ls hr.1 hfilled hr.2 hsplit
        exact (Gives.send hdata).bind fun _ _ => hsome _ hr.clear (.inl hsplit)

variable [FileStore σ φ δ]

private theorem appendEntries_gives (n : Nat) (dir : δ) (r : Reply) (hr : Listed r) :
    Conduct.Triple R anyhow (fun _ s _ => s.Sends t config .ls)
      (appendEntries config.listing n dir r : Conduct size chunk σ φ ε _)
      fun x _ s _ => s.Sends t config .ls ∧ Fulfils Listed x.1 := by
  induction n generalizing dir r with
  | zero => exact Conduct.Triple.pure fun _ _ _ hs => ⟨hs, hr⟩
  | succ n ih =>
    unfold appendEntries
    refine .bind (.onStore (Q := fun _ _ s _ => s.Sends t config .ls) fun _ _ _ hs => hs) ?_
    rintro ⟨next, dir⟩
    dsimp only
    split
    · exact .pure fun _ _ _ hs => ⟨hs, rfl⟩
    · exact .pure fun _ _ _ hs => ⟨hs, hr⟩
    · rename_i e
      split
      · exact ih dir r hr
      · have hentry : Gives R t config .ls
            (appendEntry config.listing e r : Handler size chunk σ φ ε _)
            fun q => ∀ r, q = some r → Listed r := appendEntry_gives e r hr
        refine .bind hentry fun x => ?_
        rintro v s d ⟨hs, hx⟩
        split
        · exact ⟨hs, hx⟩
        · exact ⟨hs, hr⟩
        · exact ih dir _ (hx _ rfl) v s d hs

/-- A listing sends parts of itself, if it is split, and keeps one for the end. -/
theorem ls_gives : Gives R t config .ls (ls : Handler size chunk σ φ ε Reply) Listed := by
  unfold ls
  refine Gives.endpoint.bind fun e he => ?_
  obtain rfl := he
  refine (Gives.callStore _).bind fun dir _ => ?_
  refine Gives.bind (A := fun x => Fulfils Listed x.1) (.always ?_) fun (listed, closed) hx => ?_
  · let J : Assertion size chunk σ φ ε := fun _ s _ => s.Sends t e.config .ls
    refine .bind (.setHeld (Q := fun _ => J) fun _ _ _ hs => hs) fun _ => ?_
    refine .bind (.onStore (Q := fun _ => J) fun _ _ _ hs => hs) fun bound => ?_
    refine .bind (appendEntries_gives _ dir done listed_done) fun (listed, dir) => ?_
    let J' : Assertion size chunk σ φ ε := fun v s d => J v s d ∧ Fulfils Listed listed
    refine .bind (.onStore (Q := fun _ => J') fun _ _ _ hs => hs) fun closed => ?_
    refine .bind (.setHeld (Q := fun _ => J') fun _ _ _ hs => hs) fun _ => ?_
    exact Conduct.Triple.pure fun _ _ _ hs => hs
  · have hlisted : Fulfils Listed (listed.mapError id) := by
      cases listed with
      | ok r => exact hx
      | error c => exact hx
    refine (Gives.ofExcept hlisted).bind fun r hr => ?_
    refine (Gives.ofExcept (fulfils_storage closed)).bind fun _ _ => ?_
    split
    · rename_i hsplit
      have hfilled : r.payload ≠ [] := by simpa [Reply.isEmpty] using hsplit.2
      have hdata : r.Data e.config .ls := Reply.data_ls hr.1 hfilled hr.2 hsplit.1
      exact (Gives.send hdata).bind fun _ _ => Gives.pure hr.clear
    · exact Gives.pure hr

/-! ## Sending a file -/

variable [LawfulFileStore σ φ δ]

private theorem sendPieces_gives (n : Nat) (f : φ) :
    Conduct.Triple R anyhow (fun _ s _ => s.Sends t config .cat)
      (sendPieces n f : Conduct size chunk σ φ ε _)
      fun x _ s _ => s.Sends t config .cat ∧ Fulfils (fun _ => True) x.1 := by
  induction n generalizing f with
  | zero => exact .pure fun _ _ _ hs => ⟨hs, trivial⟩
  | succ n ih =>
    unfold sendPieces
    -- A read gives no more than a piece, so that the reply has room for it.
    refine .bind (.onStore (Q := fun x _ s _ => s.Sends t config .cat ∧
      ∀ bytes, x.1 = .ok bytes → bytes.length ≤ pieceSize) ?_) ?_
    · intro v s d hs
      refine ⟨hs, fun bytes hread => ?_⟩
      rcases hr : FileStore.read d.store f pieceSize with ⟨x, f', u⟩
      simp only [hr] at hread
      subst hread
      exact LawfulFileStore.length_read_le hr
    · rintro ⟨next, f⟩
      dsimp only
      split
      · exact Conduct.Triple.pure fun _ _ _ hs => ⟨hs.1, rfl⟩
      · exact Conduct.Triple.pure fun _ _ _ hs => ⟨hs.1, trivial⟩
      · rename_i bytes hne
        by_cases hpiece : bytes.length ≤ pieceSize
        · have hfilled : bytes ≠ [] := hne
          have hsend : Gives R t config .cat
              (Handler.send ⟨.success, UInt8.ofNat bytes.length :: bytes⟩ :
                Handler size chunk σ φ ε Unit)
              fun _ => True := Gives.send (Reply.data_cat hfilled hpiece)
          rw [pieceReply_eq hpiece]
          refine Conduct.Triple.weaken (P := fun _ s _ => s.Sends t config .cat) ?_
            (fun _ _ _ hs => hs.1) fun _ _ _ _ h => h
          refine .bind hsend fun x => ?_
          rintro v s d ⟨hs, hx⟩
          split
          · exact ⟨hs, hx⟩
          · exact ih f v s d hs
        · exact fun v s d hs => absurd (hs.2 bytes rfl) hpiece

/-- A file goes out in pieces. -/
theorem cat_gives (path : Bytes) :
    Gives R t config .cat (do
      let f ← Handler.callStore (FileStore.openFile · path .reading)
      let (streamed, closed) ← Handler.always do
        Conduct.setHeld true
        let bound ← Conduct.onStore fun s => (FileStore.bytesLeft s f, s)
        let (streamed, f) ← sendPieces (bound + 1) f
        let closed ← Conduct.onStore (FileStore.closeFile · f)
        Conduct.setHeld false
        return (streamed, closed)
      Handler.ofExcept id streamed
      Handler.ofExcept .storage closed
      return done : Handler size chunk σ φ ε Reply) fun r => r.payload.length ≤ Reply.capacity := by
  refine (Gives.callStore _).bind fun f _ => ?_
  refine Gives.bind (A := fun x => Fulfils (fun _ => True) x.1) (.always ?_)
    fun (streamed, closed) hx => ?_
  · let J : Assertion size chunk σ φ ε := fun _ s _ => s.Sends t config .cat
    refine .bind (.setHeld (Q := fun _ => J) fun _ _ _ hs => hs) fun _ => ?_
    refine .bind (.onStore (Q := fun _ => J) fun _ _ _ hs => hs) fun bound => ?_
    refine .bind (sendPieces_gives _ f) fun (streamed, f) => ?_
    let J' : Assertion size chunk σ φ ε := fun v s d => J v s d ∧ Fulfils (fun _ => True) streamed
    refine .bind (.onStore (Q := fun _ => J') fun _ _ _ hs => hs) fun closed => ?_
    refine .bind (.setHeld (Q := fun _ => J') fun _ _ _ hs => hs) fun _ => ?_
    exact Conduct.Triple.pure fun _ _ _ hs => hs
  · have hstreamed : Fulfils (fun _ => True) (streamed.mapError id) := by
      cases streamed with
      | ok => trivial
      | error c => exact hx
    refine (Gives.ofExcept hstreamed).bind fun _ _ => ?_
    refine (Gives.ofExcept (fulfils_storage closed)).bind fun _ _ => ?_
    exact Gives.pure (Nat.zero_le _)

end Handler

/-! ## Failures that are no rejections -/

section

variable [FileStore σ φ δ]

private theorem WriteSession.commit_fulfils (t : φ × σ) (data : Bytes) :
    Fulfils (fun _ => True) (WriteSession.commit t data).1 := by
  unfold WriteSession.commit
  split
  · rfl
  · split
    · trivial
    · rfl

theorem WriteSession.write_fulfils (w : WriteSession chunk φ) (s : σ) (id : UInt32) (data : Bytes)
    (enforce : Bool) : Fulfils (fun _ => True) (w.write s id data enforce).1 := by
  have haccept (c : ChunkBuffer chunk) (t : φ × σ) :
      Fulfils (fun _ => True) (c.accept WriteSession.commit data t).1 := by
    induction data generalizing c t with
    | nil => trivial
    | cons b bs ih =>
      unfold ChunkBuffer.accept
      dsimp only
      split
      · exact ih _ _
      · have hcommit := WriteSession.commit_fulfils t (c.pending ++ [b])
        split
        · rename_i hc
          rwa [hc] at hcommit
        · exact ih _ _
  unfold WriteSession.write
  split
  · rename_i c hc
    unfold WriteSession.sequenceFailure at hc
    split at hc
    · cases hc
    · split at hc
      · rw [← Option.some.inj hc]
        rfl
      · cases hc
  · exact haccept w.chunk (w.file, s)

theorem WriteSession.close_fulfils (w : WriteSession chunk φ) (s : σ) :
    Fulfils (fun _ => True) (w.close s).1 := by
  have hflush : Fulfils (fun _ => True) (w.chunk.flush WriteSession.commit (w.file, s)).1 := by
    unfold ChunkBuffer.flush
    split
    · trivial
    · exact WriteSession.commit_fulfils _ _
  unfold WriteSession.close
  rcases hf : w.chunk.flush WriteSession.commit (w.file, s) with ⟨_ | _, c, f, u⟩
  · rw [hf] at hflush
    exact hflush
  · cases hclose : (FileStore.closeFile u f).1 with
    | error c =>
      simp only [hclose]
      rfl
    | ok => 
      simp only [hclose]
      trivial

theorem Device.launch_fulfils (path : Bytes) (d : Device size σ φ) :
    Fulfils (fun _ => True) (Device.launch path d).1 := by
  unfold Device.launch
  split
  · rfl
  · rfl
  · split
    · rfl
    · split
      · rfl
      · trivial

theorem Device.showFile_fulfils (path : Bytes) (d : Device size σ φ) :
    Fulfils (fun _ => True) (Device.showFile path d).1 := by
  unfold Device.showFile
  split
  · rfl
  · dsimp only
    split
    · rfl
    · rfl
    · split
      · rfl
      · split
        · rfl
        · trivial

theorem Device.writeRaw_fulfils (cursor : Nat) (pixels : Bytes) (d : Device size σ φ) :
    Fulfils (fun _ => True) (Device.writeRaw cursor pixels d).1.1 := by
  unfold Device.writeRaw
  dsimp only
  have hoverflow (n : Nat) : Fulfils (fun _ => True)
      (if n < pixels.length then .error .displayOverflow else .ok () :
        Except CommandError Unit) := by
    split
    · rfl
    · trivial
  split
  · split
    · rfl
    · exact hoverflow _
  · exact hoverflow _

end

/-! ## Objections -/

def complaint? {η : Type} : Except η α → Option η
  | .ok _ => none
  | .error x => some x

def contentOf (payload : Bytes) : Except ValidationError Bytes :=
  if payload = [] then .error .insufficientData else .ok payload

def timeOf : Bytes → Except ValidationError TimeOfDay
  | hour :: minute :: second :: _ =>
    if 23 < hour || 59 < minute || 59 < second then .error .outOfRange
    else .ok ⟨hour, minute, second⟩
  | _ => .error .insufficientData

/-- What is wrong with the input of a command, by the settings and the working directory. -/
def Endpoint.objection (e : Endpoint chunk φ) (p : Packet) : Option ValidationError :=
  match p.command with
  | .rm | .mkdir | .touch | .cat | .openFile | .chooseImage => complaint? (e.pathOf p.payload)
  | .cd => complaint? (e.directoryOf p.payload)
  | .writeFile | .writeDisplay => complaint? (contentOf p.payload)
  | .setTime => complaint? (timeOf p.payload)
  | .ls | .pwd | .closeFile | .format | .flashRemaining => none

/-! ## Whole commands -/

namespace Handler

variable [FileStore σ φ δ] {R : Pause → Device size σ φ → Device size σ φ → Prop} {t : Transport ε}
  {config : Config} {command : Command} {s : Serving chunk φ ε}

/-- On any device the command fails at once if there is an objection, and nothing has changed; or it
comes to an outcome. -/
inductive Sorted (t : Transport ε) (config : Config) (command : Command)
    (objection : Option ValidationError) (h : Handler size chunk σ φ ε Reply)
    (s : Serving chunk φ ε) : Prop
  | rejected (x : ValidationError) : objection = some x →
      (∀ d, on h s d = .done (.error (.validation x), s) d) → Sorted t config command objection h s
  | concluded : objection = none →
      (∀ (R : Pause → Device size σ φ → Device size σ φ → Prop) v d,
        (on h s d).Meets R anyhow (fun _ x _ => Outcome t config command x) v) →
      Sorted t config command objection h s

theorem sorted_check {h : Handler size chunk σ φ ε Reply} (check : Except ValidationError α)
    (bad : ∀ x, check = .error x → ∀ d, on h s d = .done (.error (.validation x), s) d)
    (good : ∀ a, check = .ok a →
      ∀ (R : Pause → Device size σ φ → Device size σ φ → Prop) v d,
        (on h s d).Meets R anyhow (fun _ x _ => Outcome t config command x) v) :
    Sorted t config command (complaint? check) h s := by
  cases hcheck : check with
  | error x => exact .rejected x rfl (bad x hcheck)
  | ok a => exact .concluded rfl (good a hcheck)

/-- A handler that sends nothing concludes if its result fits. -/
theorem outcome_of_fits {x : Except CommandError Reply} {e : Endpoint chunk φ}
    (hs : s.Sends t config command) (he : e.config = s.endpoint.config)
    (hx : Fulfils (fun r => r.payload.length ≤ Reply.capacity) x) :
    Outcome t config command (x, { s with endpoint := e }) :=
  ⟨hs.endpoint he, hx⟩

theorem done_fits : done.payload.length ≤ Reply.capacity :=
  Nat.zero_le _

theorem fulfils_done {x : Except CommandError α} (hx : Fulfils (fun _ => True) x) :
    Fulfils (fun r => r.payload.length ≤ Reply.capacity) (x.map fun _ => done) :=
  hx.map fun _ _ => done_fits

theorem pwd_sorted (hs : s.Sends t config command) :
    Sorted t config command none (pwd : Handler size chunk σ φ ε Reply) s := by
  refine .concluded rfl fun R v d => ?_
  have hfits : (s.endpoint.cwd.take done.remaining).length ≤ done.remaining :=
    List.length_take_le _ _
  rw [on_pwd, Reply.append_eq_ok hfits]
  exact outcome_of_fits hs rfl hfits

theorem setTime_sorted (hs : s.Sends t config command) (payload : Bytes) :
    Sorted t config command (complaint? (timeOf payload))
      (setTime payload : Handler size chunk σ φ ε Reply) s := by
  have hrun (d : Device size σ φ) : on (setTime payload) s d = match timeOf payload with
      | .error x => .done (.error (.validation x), s) d
      | .ok time =>
        .done (.ok done, { s with endpoint := { s.endpoint with clock := some time } }) d := by
    rw [on_setTime]
    rcases payload with _ | ⟨hour, _ | ⟨minute, _ | ⟨second, more⟩⟩⟩
    · rfl
    · rfl
    · rfl
    · simp only [timeOf]
      split <;> rfl
  apply sorted_check (timeOf payload)
  · intro x hx d
    rw [hrun, hx]
  · intro time htime R v d
    rw [hrun, htime]
    exact outcome_of_fits hs rfl done_fits

theorem rm_sorted (hs : s.Sends t config command) (payload : Bytes) :
    Sorted t config command (complaint? (s.endpoint.pathOf payload))
      (rm payload : Handler size chunk σ φ ε Reply) s := by
  apply sorted_check (s.endpoint.pathOf payload)
  · intro x hp d
    rw [on_rm, hp]
  · intro path hp R v d
    rw [on_rm, hp]
    dsimp only
    split
    · exact outcome_of_fits hs rfl rfl
    · exact outcome_of_fits hs rfl done_fits

theorem mkdir_sorted (hs : s.Sends t config command) (payload : Bytes) :
    Sorted t config command (complaint? (s.endpoint.pathOf payload))
      (mkdir payload : Handler size chunk σ φ ε Reply) s := by
  apply sorted_check (s.endpoint.pathOf payload)
  · intro x hp d
    rw [on_mkdir, hp]
  · intro path hp R v d
    rw [on_mkdir, hp]
    dsimp only
    split
    · exact outcome_of_fits hs rfl rfl
    · exact outcome_of_fits hs rfl done_fits

theorem touch_sorted (hs : s.Sends t config command) (payload : Bytes) :
    Sorted t config command (complaint? (s.endpoint.pathOf payload))
      (touch payload : Handler size chunk σ φ ε Reply) s := by
  apply sorted_check (s.endpoint.pathOf payload)
  · intro x hp d
    rw [on_touch, hp]
  · intro path hp R v d
    rw [on_touch, hp]
    dsimp only
    split
    · exact outcome_of_fits hs rfl rfl
    · split
      · exact outcome_of_fits hs rfl rfl
      · exact outcome_of_fits hs rfl done_fits

theorem cd_sorted (hs : s.Sends t config command) (payload : Bytes) :
    Sorted t config command (complaint? (s.endpoint.directoryOf payload))
      (cd payload : Handler size chunk σ φ ε Reply) s := by
  apply sorted_check (s.endpoint.directoryOf payload)
  · intro x hp d
    rw [on_cd, hp]
  · intro target hp R v d
    rw [on_cd, hp]
    dsimp only
    rw [on_enter]
    split
    · exact outcome_of_fits hs rfl rfl
    · split
      · exact outcome_of_fits hs rfl rfl
      · exact outcome_of_fits hs rfl done_fits

theorem openFile_sorted (hs : s.Sends t config command) (payload : Bytes) :
    Sorted t config command (complaint? (s.endpoint.pathOf payload))
      (openFile payload : Handler size chunk σ φ ε Reply) s := by
  apply sorted_check (s.endpoint.pathOf payload)
  · intro x hp d
    rw [on_openFile, hp]
  · intro path hp R v d
    rw [on_openFile, hp]
    dsimp only
    split
    · exact outcome_of_fits hs rfl rfl
    · split
      · exact outcome_of_fits hs rfl rfl
      · exact outcome_of_fits hs rfl done_fits

theorem contentOf_error {payload : Bytes} {x : ValidationError} (h : contentOf payload = .error x) :
    payload = [] ∧ x = .insufficientData := by
  unfold contentOf at h
  split at h
  · rename_i hp
    exact ⟨hp, (Except.error.inj h).symm⟩
  · cases h

theorem contentOf_ok {payload bytes : Bytes} (h : contentOf payload = .ok bytes) :
    payload ≠ [] := by
  rintro rfl
  cases h

theorem writeFile_sorted (hs : s.Sends t config command) (id : UInt32) (payload : Bytes) :
    Sorted t config command (complaint? (contentOf payload))
      (writeFile id payload : Handler size chunk σ φ ε Reply) s := by
  apply sorted_check (contentOf payload)
  · intro x hp d
    obtain ⟨hnil, rfl⟩ := contentOf_error hp
    rw [on_writeFile, if_pos hnil]
  · intro bytes hp R v d
    rw [on_writeFile, if_neg (contentOf_ok hp)]
    split
    · exact outcome_of_fits hs rfl rfl
    · rename_i w _
      have hwrite := w.write_fulfils d.store id payload s.endpoint.config.enforceSequence
      split
      · exact outcome_of_fits hs rfl done_fits
      · rename_i c w' u hw
        rw [hw] at hwrite
        have hc : c.rejects = false := hwrite
        split
        · exact outcome_of_fits hs rfl hc
        · exact outcome_of_fits hs rfl hc

theorem closeFile_sorted (hs : s.Sends t config command) :
    Sorted t config command none (closeFile : Handler size chunk σ φ ε Reply) s := by
  refine .concluded rfl fun R v d => ?_
  rw [on_closeFile]
  split
  · exact outcome_of_fits hs rfl rfl
  · rename_i w _
    exact outcome_of_fits hs rfl (fulfils_done (w.close_fulfils d.store))

theorem flashRemaining_sorted (hs : s.Sends t config command) :
    Sorted t config command none (flashRemaining : Handler size chunk σ φ ε Reply) s := by
  refine .concluded rfl fun R v d => ?_
  rw [on_flashRemaining]
  split
  · exact outcome_of_fits hs rfl rfl
  · have hcount (w : UInt32) : (done.setStatus .flashRemaining).append (Bytes.ofWord w) =
        .ok ⟨.flashRemaining, Bytes.ofWord w⟩ := Reply.append_eq_ok (Nat.le_add_right 4 27)
    have hsize (w w' : UInt32) :
        (⟨.flashRemaining, Bytes.ofWord w⟩ : Reply).append (Bytes.ofWord w') =
        .ok ⟨.flashRemaining, Bytes.ofWord w ++ Bytes.ofWord w'⟩ :=
      Reply.append_eq_ok (Nat.le_add_right 4 23)
    rw [hcount, Except.bind, hsize]
    exact outcome_of_fits hs rfl (Nat.le_add_right 8 23)

/-- What follows a stop concludes the command, whatever the stop comes to. -/
theorem meets_after_stop {f : Bool → Device size σ φ →
      Run (Device size σ φ) (Except CommandError Reply × Serving chunk φ ε)}
    (hf : ∀ b v w, (f b w).Meets R anyhow (fun _ x _ => Outcome t config command x) v)
    (v d : Device size σ φ) :
    ((Device.stop d).bind f).Meets R anyhow (fun _ x _ => Outcome t config command x) v := by
  rw [Run.meets_bind]
  exact Run.meets_of_forall (fun _ _ _ => trivial) (fun v b w => hf b v w) v (Device.stop d)

private theorem wipe_gives : Gives R t config command (wipe : Handler size chunk σ φ ε Reply)
    fun r => r.payload.length ≤ Reply.capacity := by
  have habandon : Gives R t config command (abandonUpload : Handler size chunk σ φ ε Unit)
      fun _ => True := by
    intro v s d hs
    rw [Conduct.on_run, on_abandonUpload]
    split
    · exact ⟨hs, trivial⟩
    · exact ⟨hs.endpoint rfl, trivial⟩
  have hmodify : Gives R t config command (modifyEndpoint (fun e => { e with
      cwd := rootDirectory
      cursor := 0 }) : Handler size chunk σ φ ε Unit) fun _ => True :=
    fun v s d hs => ⟨hs.endpoint rfl, trivial⟩
  refine habandon.bind fun _ _ => ?_
  refine hmodify.bind fun _ _ => ?_
  refine (Gives.callStore _).bind fun _ _ => ?_
  refine (Gives.callStore _).bind fun _ _ => ?_
  exact Gives.pure done_fits

theorem format_sorted (hs : s.Sends t config command) :
    Sorted t config command none (format : Handler size chunk σ φ ε Reply) s := by
  refine .concluded rfl fun R v d => ?_
  rw [on_format]
  apply meets_after_stop
  intro _ v w
  exact (wipe_gives v s w hs).imp fun _ _ _ hx => ⟨hx.1, hx.2⟩

theorem chooseImage_sorted (hs : s.Sends t config command) (payload : Bytes) :
    Sorted t config command (complaint? (s.endpoint.pathOf payload))
      (chooseImage payload : Handler size chunk σ φ ε Reply) s := by
  apply sorted_check (s.endpoint.pathOf payload)
  · intro x hp d
    rw [on_chooseImage, hp]
  · intro path hp R v d
    have hstart : Device.start path d =
        (Device.stop d).bind fun _ w =>
          .done (Device.launch path w).1 (Device.launch path w).2 := rfl
    have hshow : Device.showStill path d =
        (Device.stop d).bind fun _ w =>
          .done (Device.showFile path w).1 (Device.showFile path w).2 :=
      rfl
    rw [on_chooseImage, hp]
    dsimp only
    split
    · rw [hstart, Run.bind_bind]
      apply meets_after_stop
      intro _ v w
      exact outcome_of_fits hs rfl (fulfils_done (Device.launch_fulfils path w))
    · rw [hshow, Run.bind_bind]
      apply meets_after_stop
      intro _ v w
      exact outcome_of_fits hs rfl (fulfils_done (Device.showFile_fulfils path w))

theorem writeDisplay_sorted (hs : s.Sends t config command) (payload : Bytes) :
    Sorted t config command (complaint? (contentOf payload))
      (writeDisplay payload : Handler size chunk σ φ ε Reply) s := by
  apply sorted_check (contentOf payload)
  · intro x hp d
    obtain ⟨hnil, rfl⟩ := contentOf_error hp
    rw [on_writeDisplay, if_pos hnil]
  · intro bytes hp R v d
    have hpaint (v w : Device size σ φ) : (on (paint payload) s w).Meets R anyhow
        (fun _ x _ => Outcome t config command x) v := by
      rw [on_paint]
      exact outcome_of_fits hs rfl (fulfils_done (Device.writeRaw_fulfils _ _ w))
    rw [on_writeDisplay, if_neg (contentOf_ok hp)]
    split
    · exact meets_after_stop (fun _ v w => hpaint v w) v d
    · exact hpaint v d

private theorem ls_sorted (hs : s.Sends t config .ls) :
    Sorted t config .ls none (ls : Handler size chunk σ φ ε Reply) s := by
  refine .concluded rfl fun R v d => ?_
  exact (ls_gives v s d hs).imp fun _ _ _ hx => ⟨hx.1, hx.2.imp fun _ hr => hr.2⟩

variable [LawfulFileStore σ φ δ]

private theorem cat_sorted (hs : s.Sends t config .cat) (payload : Bytes) :
    Sorted t config .cat (complaint? (s.endpoint.pathOf payload))
      (cat payload : Handler size chunk σ φ ε Reply) s := by
  apply sorted_check (s.endpoint.pathOf payload)
  · intro x hp d
    rw [cat, on_bind, on_pathArgument, hp]
    rfl
  · intro path hp R v d
    rw [cat, on_bind, on_pathArgument, hp]
    exact (cat_gives path v s d hs).imp fun _ _ _ hx => ⟨hx.1, hx.2⟩

/-- A command is rejected before it does anything if there is an objection to it, and comes to an
outcome if there is none. -/
theorem execute_sorted (p : Packet) (hs : s.Sends t config p.command) :
    Sorted t config p.command (s.endpoint.objection p)
      (execute p : Handler size chunk σ φ ε Reply) s := by
  unfold execute Endpoint.objection
  cases hc : p.command with
  | ls => exact ls_sorted (hc ▸ hs)
  | cd => exact cd_sorted (hc ▸ hs) _
  | pwd => exact pwd_sorted (hc ▸ hs)
  | rm => exact rm_sorted (hc ▸ hs) _
  | mkdir => exact mkdir_sorted (hc ▸ hs) _
  | touch => exact touch_sorted (hc ▸ hs) _
  | cat => exact cat_sorted (hc ▸ hs) _
  | openFile => exact openFile_sorted (hc ▸ hs) _
  | writeFile => exact writeFile_sorted (hc ▸ hs) _ _
  | closeFile => exact closeFile_sorted (hc ▸ hs)
  | format => exact format_sorted (hc ▸ hs)
  | flashRemaining => exact flashRemaining_sorted (hc ▸ hs)
  | chooseImage => exact chooseImage_sorted (hc ▸ hs) _
  | writeDisplay => exact writeDisplay_sorted (hc ▸ hs) _
  | setTime => exact setTime_sorted (hc ▸ hs) _

end Handler

end PanelLink
