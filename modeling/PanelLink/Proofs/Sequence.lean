import Mathlib.Data.List.Chain
import PanelLink.Proofs.Atomicity
import PanelLink.Proofs.Reset

/-!
The ids of the packets of an upload. With the sequence enforced each one that is taken follows the
one before, so that a packet that comes again is not stored again.
-/
namespace PanelLink

open Device Handler

variable {size chunk : Nat} {σ φ δ ε : Type}

/-! ## Ids in turn -/

/-- Each id is the one after the id before it; after the largest comes zero. -/
abbrev InTurn (ids : List UInt32) : Prop :=
  ids.IsChain fun a b => b = a + 1

namespace InTurn

variable {ids : List UInt32}

theorem snoc (h : InTurn ids) {id : UInt32}
    (hid : ∀ last, ids.getLast? = some last → id = last + 1) :
    InTurn (ids ++ [id]) := by
  refine List.isChain_append.mpr ⟨h, List.isChain_singleton id, fun last hlast y hy => ?_⟩
  obtain rfl : id = y := Option.some.inj hy
  exact hid last hlast

/-- The ids are counted from the first. -/
theorem getElem_eq (h : InTurn ids) {b x : UInt32} {i : Nat} (hb : ids.head? = some b)
    (hx : ids[i]? = some x) : x = b + UInt32.ofNat i := by
  induction i generalizing x with
  | zero =>
    rw [← List.head?_eq_getElem?, hb] at hx
    obtain rfl := Option.some.inj hx
    exact (UInt32.add_zero b).symm
  | succ i ih =>
    obtain ⟨hi, rfl⟩ := List.getElem?_eq_some_iff.mp hx
    have hbefore : ids[i]? = some ids[i] := List.getElem?_eq_getElem (Nat.lt_of_succ_lt hi)
    have hstep : ids[i + 1] = ids[i] + 1 := List.isChain_iff_getElem.mp h i hi
    rw [hstep, ih hbefore, UInt32.add_assoc]
    exact congrArg (b + ·) (UInt32.ofNat_add i 1).symm

/-- An id comes again after all others only. -/
theorem apart (h : InTurn ids) {x : UInt32} {i j : Nat} (hij : i < j) (hi : ids[i]? = some x)
    (hj : ids[j]? = some x) : i + Bytes.wordLimit ≤ j := by
  cases ids with
  | nil => cases hi
  | cons b ids =>
    have hsame : b + UInt32.ofNat i = b + UInt32.ofNat j :=
      (h.getElem_eq rfl hi).symm.trans (h.getElem_eq rfl hj)
    have hmod : i % 2 ^ 32 = j % 2 ^ 32 := by
      have heq := congrArg UInt32.toNat ((UInt32.add_right_inj b).mp hsame)
      simpa only [UInt32.toNat_ofNat'] using heq
    unfold Bytes.wordLimit
    omega

end InTurn

/-! ## The ids that are taken -/

section

variable [FileStore σ φ δ]

/-- The ids of the packets that the session has taken once `p` is carried out, if it has taken those
of `ids`. A session begins with an open. -/
def Endpoint.ids (e : Endpoint chunk φ) (d : Device size σ φ) (ids : List UInt32) (p : Packet) :
    List UInt32 :=
  match p.command with
  | .openFile => if e.accepts d p then [] else ids
  | .writeFile => if e.accepts d p then ids ++ [p.id] else ids
  | _ => ids

def Request.ids (e : Endpoint chunk φ) (d : Device size σ φ) (ids : List UInt32) :
    Request ε → List UInt32
  | .frame _ bytes =>
    match Packet.decode bytes with
    | .ok p => e.ids d ids p
    | .error _ => ids
  | _ => ids

def Scene.counted (s : Scene size chunk σ φ ε) (ids : List UInt32) : Action σ ε → List UInt32
  | .request r =>
    match s.hand with
    | .free e => r.ids e s.device ids
    | .busy .. => ids
  | _ => ids

def Scene.ids (s : Scene size chunk σ φ ε) (ids : List UInt32) : List (Action σ ε) → List UInt32
  | [] => ids
  | a :: as => (s.act a).2.ids (s.counted ids a) as

/-- Only an open and a write have to do with the ids. -/
theorem Endpoint.ids_eq {e : Endpoint chunk φ} {d : Device size σ φ} {ids : List UInt32}
    {p : Packet}
    (hopen : p.command ≠ .openFile) (hwrite : p.command ≠ .writeFile) : e.ids d ids p = ids := by
  unfold Endpoint.ids
  split
  · exact absurd ‹_› hopen
  · exact absurd ‹_› hwrite
  · rfl

end

/-- The open or last session has taken packets with these ids, and measures the next by them. -/
structure Endpoint.Counts (config : Config) (ids : List UInt32) (e : Endpoint chunk φ) : Prop where
  config : e.config = config
  inTurn : InTurn ids
  next : ∀ w, e.upload = some w → w.lastId = ids.getLast?

/-! ## Commands -/

/-- A packet that is taken had the right id, and the next is measured by it. -/
theorem WriteSession.write_ok [FileStore σ φ δ] {w w' : WriteSession chunk φ} {s t : σ}
    {id : UInt32} {data : Bytes} {enforce : Bool}
    (h : w.write s id data enforce = (.ok (), w', t)) :
    w.sequenceFailure enforce id = none ∧ w'.lastId = some id := by
  unfold write at h
  cases hid : w.sequenceFailure enforce id with
  | some x =>
    rw [hid] at h
    cases h
  | none =>
    rw [hid] at h
    obtain ⟨-, hrest⟩ := Prod.mk.inj h
    obtain ⟨rfl, -⟩ := Prod.mk.inj hrest
    exact ⟨rfl, rfl⟩

namespace Endpoint.Counts

variable {config : Config} {ids : List UInt32} {e : Endpoint chunk φ} {w : WriteSession chunk φ}
  {p : Packet}

theorem initial (config : Config) : (Endpoint.initial config : Endpoint chunk φ).Counts config [] :=
  ⟨rfl, .nil, nofun⟩

/-- A session that is over keeps the ids it has taken. -/
theorem finished (h : e.Counts config ids) {e' : Endpoint chunk φ} (hconfig : e'.config = e.config)
    (hu : e'.upload = none) : e'.Counts config ids := by
  refine ⟨hconfig.trans h.config, h.inTurn, fun w hw => ?_⟩
  rw [hu] at hw
  cases hw

/-- What is wrong with the id of a packet. -/
theorem sequenceFailure (h : e.Counts config ids) (henforce : config.enforceSequence = true)
    (hu : e.upload = some w) (id : UInt32) :
    w.sequenceFailure e.config.enforceSequence id =
      match ids.getLast? with
      | none => none
      | some last => if id ≠ last + 1 then some (.sequence (last + 1) id) else none := by
  unfold WriteSession.sequenceFailure
  rw [h.config, henforce, h.next w hu]
  cases ids.getLast? with
  | none => rfl
  | some last => simp only [true_and]

/-- A packet with the right id follows the last one that was taken, if any was. -/
theorem follows (h : e.Counts config ids) (henforce : config.enforceSequence = true)
    (hu : e.upload = some w) {id : UInt32}
    (hid : w.sequenceFailure e.config.enforceSequence id = none) {last : UInt32}
    (hlast : ids.getLast? = some last) : id = last + 1 := by
  rw [h.sequenceFailure henforce hu, hlast] at hid
  by_contra hne
  cases (if_pos hne).symm.trans hid

variable [FileStore σ φ δ] {d : Device size σ φ}

/-- A packet out of sequence changes nothing. -/
theorem yields_refused (h : e.Counts config ids) (henforce : config.enforceSequence = true)
    (hu : e.upload = some w) (d : Device size σ φ) {last : UInt32}
    (hlast : ids.getLast? = some last)
    (hc : p.command = .writeFile) (hp : p.payload ≠ []) (hid : p.id ≠ last + 1) :
    e.Yields d p (.error (.sequence (last + 1) p.id)) e d := by
  have hfailure : w.sequenceFailure e.config.enforceSequence p.id =
      some (.sequence (last + 1) p.id) := by
    rw [h.sequenceFailure henforce hu, hlast]
    exact if_pos hid
  have hwrite : w.write d.store p.id p.payload e.config.enforceSequence =
      (.error (.sequence (last + 1) p.id), w, d.store) := by
    unfold WriteSession.write
    rw [hfailure]
  have he : { e with upload := some w } = e := by rw [← hu]
  have hyields := yields_writeFile_refused (d := d) hc hp hu rfl hwrite
  rwa [he] at hyields

theorem failure_iff (h : e.Counts config ids) (henforce : config.enforceSequence = true)
    (hu : e.upload = some w) (d : Device size σ φ) (hc : p.command = .writeFile)
    (hp : p.payload ≠ [])
    {x y : UInt32} : e.failure? d p = some (.sequence x y) ↔
      ∃ last, ids.getLast? = some last ∧ p.id ≠ last + 1 ∧ x = last + 1 ∧ y = p.id := by
  constructor
  · intro hfailure
    cases hid : w.sequenceFailure e.config.enforceSequence p.id with
    | some z =>
      have hjudged := (h.sequenceFailure henforce hu p.id).symm.trans hid
      cases hlast : ids.getLast? with
      | none =>
        rw [hlast] at hjudged
        cases hjudged
      | some last =>
        rw [hlast] at hjudged
        have hne : p.id ≠ last + 1 := by
          intro heq
          cases (if_neg (not_not_intro heq)).symm.trans hjudged
        have hyields := h.yields_refused henforce hu d hlast hc hp hne
        obtain ⟨rfl, rfl⟩ := CommandError.sequence.inj
          (Option.some.inj (hfailure.symm.trans hyields.failure))
        exact ⟨last, rfl, hne, rfl, rfl⟩
    | none =>
      exfalso
      have herror (z : CommandError)
          (hz : (w.write d.store p.id p.payload e.config.enforceSequence).1 = .error z) :
          z.isStorage = true := by
        unfold WriteSession.write at hz
        rw [hid] at hz
        exact WriteSession.accept_error p.payload hz
      rcases hw : w.write d.store p.id p.payload e.config.enforceSequence with ⟨z | ⟨⟩, w', t⟩
      · rw [hw] at herror
        have hyields := yields_writeFile_failed hc hp hu (herror z rfl) hw
        obtain rfl := Option.some.inj (hyields.failure.symm.trans hfailure)
        cases herror _ rfl
      · cases (yields_writeFile hc hp hu hw).no_failure.symm.trans hfailure
  · rintro ⟨last, hlast, hid, rfl, rfl⟩
    exact (h.yields_refused henforce hu d hlast hc hp hid).failure

/-- A write is taken, or it is not and nothing is counted. -/
theorem writeFile (h : e.Counts config ids) (henforce : config.enforceSequence = true)
    (hc : p.command = .writeFile) (d : Device size σ φ) :
    ∃ result e' d', e.Yields d p result e' d' ∧ e'.Counts config (e.ids d ids p) := by
  have hids {result : Except CommandError Reply} {e' : Endpoint chunk φ} {d' : Device size σ φ}
      (hy : e.Yields d p result e' d') :
      e.ids d ids p = if result.toBool then ids ++ [p.id] else ids := by
    simp only [Endpoint.ids, hc, hy.accepts]
  -- Only a packet with bytes comes before the session, and only one that is taken becomes the last.
  by_cases hp : p.payload = []
  · have hy := yields_writeFile_nothing (e := e) (d := d) hc hp
    exact ⟨_, e, d, hy, hids hy ▸ h⟩
  cases hu : e.upload with
  | none =>
    have hy := yields_writeFile_idle (d := d) hc hp hu
    exact ⟨_, e, d, hy, hids hy ▸ h⟩
  | some w =>
    have herror := w.write_error d.store p.id p.payload e.config.enforceSequence
    rcases hw : w.write d.store p.id p.payload e.config.enforceSequence with ⟨x | ⟨⟩, w', t⟩
    · rw [hw] at herror
      obtain ⟨y, hy, hsame⟩ | hstorage := herror
      · cases hsame
        have hyields := yields_writeFile_refused hc hp hu hy hw
        have he : { e with upload := some w } = e := by rw [← hu]
        rw [he] at hyields
        exact ⟨_, _, _, hyields, hids hyields ▸ h⟩
      · have hyields := yields_writeFile_failed hc hp hu (hstorage x rfl) hw
        exact ⟨_, _, _, hyields, hids hyields ▸ h.finished rfl rfl⟩
    · obtain ⟨hid, hlast⟩ := WriteSession.write_ok hw
      have hyields := yields_writeFile hc hp hu hw
      refine ⟨_, _, _, hyields, hids hyields ▸ ⟨h.config, ?_, ?_⟩⟩
      · exact h.inTurn.snoc fun last => h.follows henforce hu hid
      · rintro u hu'
        obtain rfl : w' = u := Option.some.inj hu'
        exact hlast.trans List.getLast?_concat.symm

/-- An open begins with no ids, or it fails and nothing is changed for the ids. -/
theorem openFile (h : e.Counts config ids) (hc : p.command = .openFile) (d : Device size σ φ) :
    ∃ result e' d', e.Yields d p result e' d' ∧ e'.Counts config (e.ids d ids p) := by
  have hids {result : Except CommandError Reply} {e' : Endpoint chunk φ} {d' : Device size σ φ}
      (hy : e.Yields d p result e' d') : e.ids d ids p = if result.toBool then [] else ids := by
    simp only [Endpoint.ids, hc, hy.accepts]
  cases hp : e.pathOf p.payload with
  | error x =>
    have hy := yields_openFile_nowhere (d := d) hc hp
    exact ⟨_, _, _, hy, hids hy ▸ h⟩
  | ok path =>
    cases hu : e.upload with
    | some w =>
      obtain ⟨x, hy⟩ := yields_openFile_again (d := d) hc hu
      exact ⟨_, _, _, hy, hids hy ▸ h⟩
    | none =>
      rcases ho : FileStore.openFile d.store path .appending with ⟨x | f, t⟩
      · have hy := yields_openFile_failed hc hp hu ho
        exact ⟨_, _, _, hy, hids hy ▸ h⟩
      · have hy := yields_openFile hc hp hu ho
        refine ⟨_, _, _, hy, hids hy ▸ ⟨h.config, .nil, ?_⟩⟩
        rintro w hw
        obtain rfl : .ofFile f = w := Option.some.inj hw
        rfl

theorem closeFile (h : e.Counts config ids) (hc : p.command = .closeFile) (d : Device size σ φ) :
    ∃ result e' d', e.Yields d p result e' d' ∧ e'.Counts config ids := by
  cases hu : e.upload with
  | none => exact ⟨_, _, _, yields_closeFile_idle hc hu, h⟩
  | some w => exact ⟨_, _, _, yields_closeFile hc hu, h.finished rfl rfl⟩

theorem rm (h : e.Counts config ids) (hc : p.command = .rm) (d : Device size σ φ) :
    ∃ result e' d', e.Yields d p result e' d' ∧ e'.Counts config ids := by
  obtain ⟨result, hy | ⟨path, -, hy⟩⟩ := yields_rm (e := e) (d := d) hc
  · exact ⟨_, _, _, hy, h⟩
  · exact ⟨_, _, _, hy, h⟩

end Endpoint.Counts

namespace Handler

variable [FileStore σ φ δ] {R : Pause → Device size σ φ → Device size σ φ → Prop}
  {config : Config} {ids : List UInt32}

def Counting (config : Config) (ids : List UInt32) : Assertion size chunk σ φ ε :=
  fun _ s _ => s.endpoint.Counts config ids

theorem counting_aloof : Aloof R anyhow
    fun _ : CommandHandle φ δ => (Counting config ids : Assertion size chunk σ φ ε) where
  pause h _ := ⟨trivial, fun _ _ => h⟩
  outbox _ h := h
  held _ h := h
  cwd _ h := ⟨h.config, h.inTurn, h.next⟩
  clock _ h := ⟨h.config, h.inTurn, h.next⟩
  openFile _ h := by split <;> exact h
  create _ h := by split <;> exact h
  closeFile h := h
  read _ h := h
  openDir _ h := by split <;> exact h
  readDir h := h
  closeDir h := h
  mkdir _ h := h
  usedBlocks h := h
  await h := ⟨trivial, fun _ _ => h⟩
  look h := h
  requestStop h := h
  teardown _ h := h
  launch _ h := h
  showFile _ h := h
  writeRaw _ _ h := h
  cursor _ h := ⟨h.config, h.inTurn, h.next⟩

private theorem format_counting :
    Keeps R anyhow (Counting config ids) (format : Handler size chunk σ φ ε Reply) := by
  intro v s d h
  rw [Conduct.on_run, on_format]
  refine (counting_aloof (δ := δ)).toShowing.stop_then h fun v b w hw => ?_
  obtain ⟨x, t, hwipe, -⟩ := wipe_cases s w
  rw [hwipe]
  have hover : (((Endpoint.initial s.endpoint.config).atTime s.endpoint.clock :
      Endpoint chunk φ)).Counts config ids := hw.finished rfl rfl
  cases x <;> exact hover

end Handler

section

variable [FileStore σ φ δ] {R : Pause → Device size σ φ → Device size σ φ → Prop} {config : Config}
  {ids : List UInt32} {e : Endpoint chunk φ}

/-- A command comes to a result at once and counts the ids as it should, or it has nothing to do
with them. -/
theorem Endpoint.Counts.execute (h : e.Counts config ids) (henforce : config.enforceSequence = true)
    (p : Packet) (d : Device size σ φ) :
    (∃ result e' d', e.Yields d p result e' d' ∧ e'.Counts config (e.ids d ids p)) ∨
    (e.ids d ids p = ids ∧
      Keeps R anyhow (Counting config ids) (execute p : Handler size chunk σ φ ε Reply)) := by
  have hother (ha : p.command.aloof = true) : e.ids d ids p = ids := by
    refine Endpoint.ids_eq ?_ ?_ <;>
      · intro hc
        simp [hc, Command.aloof] at ha
  -- The commands on the upload are followed one by one; the others have a rule for all of them.
  cases hc : p.command with
  | openFile => exact .inl (h.openFile hc d)
  | writeFile => exact .inl (h.writeFile henforce hc d)
  | closeFile =>
    have hids : e.ids d ids p = ids := Endpoint.ids_eq (by simp [hc]) (by simp [hc])
    exact .inl (hids.symm ▸ h.closeFile hc d)
  | rm =>
    have hids : e.ids d ids p = ids := Endpoint.ids_eq (by simp [hc]) (by simp [hc])
    exact .inl (hids.symm ▸ h.rm hc d)
  | format =>
    refine .inr ⟨Endpoint.ids_eq (by simp [hc]) (by simp [hc]), ?_⟩
    unfold Handler.execute
    rw [hc]
    exact format_counting (δ := δ)
  | _ =>
    have ha : p.command.aloof = true := by rw [hc]; rfl
    exact .inr ⟨hother ha, (counting_aloof (δ := δ)).execute p ha⟩

/-- After a request the ids are those that they should be. -/
theorem Request.routine_counts (h : e.Counts config ids) (henforce : config.enforceSequence = true)
    (r : Request ε) (d : Device size σ φ) :
    (r.routine e d).Meets R anyhow (fun _ x _ => x.2.Counts config (r.ids e d ids)) d := by
  have haloof : Aloof R anyhow
      fun _ : CommandHandle φ δ => (Counting config ids : Assertion size chunk σ φ ε) :=
        counting_aloof
  have hframe {transport : Transport ε} {bytes : Bytes} (hkeeps : ∀ p, Packet.decode bytes = .ok p →
      Keeps R anyhow (Counting config ids) (Handler.execute p : Handler size chunk σ φ ε Reply)) :
      ((frame transport bytes).routine e d).Meets R anyhow
        (fun _ x _ => x.2.Counts config ids) d := by
    rw [routine_frame, Run.meets_bind]
    exact haloof.serve bytes (fun _ _ _ hs => hs) hkeeps d ⟨e, _⟩ d h
  cases r with
  | frame transport bytes =>
    unfold Request.ids
    dsimp only
    cases hp : Packet.decode bytes with
    | error c => exact hframe fun p hok => nomatch hp.symm.trans hok
    | ok p =>
      obtain ⟨result, e', d', hy, hcounts⟩ | ⟨hids, hkeeps⟩ := h.execute henforce p d
      · exact hy.meets (P := fun e _ => e.Counts config _) hp hcounts trivial fun _ _ => hcounts
      · dsimp only
        rw [hids]
        refine hframe fun q hq => ?_
        obtain rfl := Except.ok.inj (hp.symm.trans hq)
        exact hkeeps
  | _ =>
    refine (haloof.routine (s := ⟨e, .empty .instant⟩) _ (by rintro _ _ ⟨⟩) h).imp ?_
    exact fun v x w hx => hx.1 ▸ hx.2

theorem Request.ids_inTurn (h : e.Counts config ids) (henforce : config.enforceSequence = true)
    (r : Request ε) (d : Device size σ φ) : InTurn (r.ids e d ids) := by
  unfold Request.ids
  split
  · split
    · rename_i p hp
      have hexecute := h.execute (R := fun _ _ _ => False) (ε := ε) henforce p d
      obtain ⟨result, e', d', -, hcounts⟩ | ⟨hids, -⟩ := hexecute
      · exact hcounts.inTurn
      · exact hids.symm ▸ h.inTurn
    · exact h.inTurn
  · exact h.inTurn

/-- A packet that comes to a result in one stretch has one reply, which the transport takes or
refuses. -/
theorem Endpoint.Yields.routine_replies {e' : Endpoint chunk φ} {d d' : Device size σ φ}
    {p : Packet}
    {result : Except CommandError Reply} (h : e.Yields d p result e' d') (transport : Transport ε)
    {bytes : Bytes} (hp : Packet.decode bytes = .ok p) :
    ∃ answer replies, ((transport.refuse 0 = none ∧ answer = .ok (finalReply result).status ∧
          replies = [finalReply result]) ∨
        ∃ x, transport.refuse 0 = some x ∧ answer = .error x ∧ replies = []) ∧
      ((Request.frame transport bytes).routine e d = .done (.served answer replies, e') d' ∨
        (Request.frame transport bytes).routine e d =
          .paused .delivery d' (.done (.served answer replies, e'))) := by
  have hrun : (Request.frame transport bytes).routine e d =
      ((Conduct.post (finalReply result)).on ⟨e', .empty transport⟩ d').bind fun x w =>
        .done (.served (x.2.outbox.failure.elim (.ok (finalReply result).status) .error)
          x.2.outbox.sent, x.2.endpoint) w := by
    rw [Request.routine_frame, Conduct.on_serve _ _ hp, h, Run.done_bind, Conduct.on_conclude]
    dsimp only [Outbox.empty]
    rw [Conduct.on_finish, Run.bind_bind]
    rfl
  rw [hrun, Conduct.on_post]
  cases hx : transport.refuse 0 with
  | some x =>
    have hpost : (Outbox.empty transport).post (finalReply result) =
        (false, { Outbox.empty transport with attempts := 1, failure := some x }) := by
      simp only [Outbox.post, Outbox.empty, hx]
    rw [hpost]
    exact ⟨.error x, [], .inr ⟨x, rfl, rfl, rfl⟩, .inl rfl⟩
  | none =>
    have hpost : (Outbox.empty transport).post (finalReply result) =
        (true, { Outbox.empty transport with attempts := 1, sent := [finalReply result] }) := by
      simp only [Outbox.post, Outbox.empty, hx, List.nil_append]
    rw [hpost]
    refine ⟨.ok (finalReply result).status, [finalReply result], .inl ⟨rfl, rfl, rfl⟩, ?_⟩
    split
    · exact .inr rfl
    · exact .inl rfl

end

/-! ## Runs -/

namespace Scene

variable [FileStore σ φ δ] {config : Config} {ids : List UInt32} {s : Scene size chunk σ φ ε}

structure Counts (config : Config) (ids : List UInt32) (s : Scene size chunk σ φ ε) : Prop where
  inTurn : InTurn ids
  sound : s.Sound (fun _ => True) (fun e _ => e.Counts config ids) (fun _ _ => anyhow)
    (fun _ _ _ x _ => x.2.Counts config ids)

theorem Counts.settle {r : Request ε} {e : Endpoint chunk φ}
    {run : Run (Device size σ φ) (Answer ε × Endpoint chunk φ)} {v : Device size σ φ}
    (h : run.Meets (Resumes fun _ => True) anyhow (fun _ x _ => x.2.Counts config ids) v)
    (hids : InTurn ids) : (Scene.settle r e run).2.Counts config ids where
  inTurn := hids
  sound := sound_settle (T := fun _ _ => anyhow) (Q := fun _ _ _ x _ => x.2.Counts config ids) h
    fun _ _ _ _ hx => hx

theorem Counts.act (h : s.Counts config ids) (henforce : config.enforceSequence = true)
    (a : Action σ ε) : (s.act a).2.Counts config (s.counted ids a) := by
  cases a with
  | aside x => exact ⟨h.inTurn, sound_aside h.sound trivial fun _ _ hready => hready⟩
  | request r =>
    unfold counted
    cases hs : s.hand with
    | busy r' e pause k =>
      rw [act_request_busy hs]
      exact h
    | free e =>
      have hready : e.Counts config ids := h.sound.ready hs
      rw [act_request hs]
      exact .settle (Request.routine_counts hready henforce r s.device)
        (Request.ids_inTurn hready henforce r s.device)
  | resume =>
    show (s.act .resume).2.Counts config ids
    cases hs : s.hand with
    | free e =>
      rw [act_resume_free hs]
      exact h
    | busy r e pause k =>
      rcases harrived : s.device.arrived pause with ⟨_ | _, d⟩
      · have hlook := sound_look h.sound hs (congrArg Prod.fst harrived)
        rw [harrived] at hlook
        rw [act_look hs harrived]
        exact ⟨h.inTurn, hlook⟩
      · rw [act_resume hs harrived]
        exact .settle (h.sound.resumed hs (.ended harrived)) h.inTurn

theorem Counts.after (h : s.Counts config ids) (henforce : config.enforceSequence = true)
    (as : List (Action σ ε)) : (s.after as).Counts config (s.ids ids as) := by
  induction as generalizing s ids with
  | nil => exact h
  | cons a as ih => exact ih (h.act henforce a)

/-- The packet is answered by the status alone, unless the transport refuses it, and the device and
the endpoint stay as they are. -/
def Rebuffs (s : Scene size chunk σ φ ε) (e : Endpoint chunk φ) (transport : Transport ε)
    (bytes : Bytes) (status : Status) : Prop :=
  ∃ answer replies, ((transport.refuse 0 = none ∧ answer = .ok status ∧
        replies = [.ofStatus status]) ∨
      ∃ x, transport.refuse 0 = some x ∧ answer = .error x ∧ replies = []) ∧
    (s.act (.request (.frame transport bytes)) = (.answered (.served answer replies), s) ∨
      s.act (.request (.frame transport bytes)) = (.quiet,
        { s with hand := .busy (.frame transport bytes) e .delivery
                  (.done (.served answer replies, e)) }))

/-- The session has taken packets with these ids, counted from the first, so that an id comes again
after all others only. Between two commands a packet with any other id than the next is answered by
a sequence error and changes nothing. -/
structure Sequenced (ids : List UInt32) (s : Scene size chunk σ φ ε) : Prop where
  counted {b x : UInt32} {i : Nat} : ids.head? = some b → ids[i]? = some x → x = b + UInt32.ofNat i
  apart {x : UInt32} {i j : Nat} : i < j → ids[i]? = some x → ids[j]? = some x →
    i + Bytes.wordLimit ≤ j
  measured {e : Endpoint chunk φ} {w : WriteSession chunk φ} : s.hand = .free e →
    e.upload = some w → w.lastId = ids.getLast?
  judged {e : Endpoint chunk φ} {w : WriteSession chunk φ} {p : Packet} {x y : UInt32} :
    s.hand = .free e → e.upload = some w → p.command = .writeFile → p.payload ≠ [] →
    (e.failure? s.device p = some (.sequence x y) ↔
      ∃ last, ids.getLast? = some last ∧ p.id ≠ last + 1 ∧ x = last + 1 ∧ y = p.id)
  refused {e : Endpoint chunk φ} {w : WriteSession chunk φ} {transport : Transport ε}
    {bytes : Bytes} {p : Packet} {last : UInt32} :
    s.hand = .free e → e.upload = some w → Packet.decode bytes = .ok p → p.command = .writeFile →
    p.payload ≠ [] → ids.getLast? = some last → p.id ≠ last + 1 →
    s.Rebuffs e transport bytes .sequenceError

variable {e : Endpoint chunk φ} {w : WriteSession chunk φ} {p : Packet}

private theorem Counts.rebuffs (h : s.Counts config ids) (henforce : config.enforceSequence = true)
    (hfree : s.hand = .free e) (hu : e.upload = some w) (transport : Transport ε) {bytes : Bytes}
    (hp : Packet.decode bytes = .ok p) (hc : p.command = .writeFile) (hne : p.payload ≠ [])
    {last : UInt32} (hlast : ids.getLast? = some last) (hid : p.id ≠ last + 1) :
    s.Rebuffs e transport bytes .sequenceError := by
  have hready : e.Counts config ids := h.sound.ready hfree
  have hyields := hready.yields_refused henforce hu s.device hlast hc hne hid
  obtain ⟨answer, replies, hanswer, hrun⟩ := hyields.routine_replies transport hp
  refine ⟨answer, replies, hanswer, ?_⟩
  rw [act_request hfree]
  obtain hrun | hrun := hrun
  · rw [hrun]
    exact .inl (by rw [Scene.settle, ← hfree])
  · rw [hrun]
    exact .inr rfl

/-- With the sequence enforced the packets of every session are taken at most once and in order,
whatever the host sends, whatever is lost and whatever else happens. -/
theorem packets_in_turn (henforce : config.enforceSequence = true) (d : Device size σ φ)
    (as : List (Action σ ε)) :
    let first : Scene size chunk σ φ ε := ⟨d, .free (.initial config)⟩
    (first.after as).Sequenced (first.ids [] as) := by
  intro first
  have hfirst : first.Counts config [] := ⟨.nil, .initial config⟩
  have hcounts : (first.after as).Counts config (first.ids [] as) := hfirst.after henforce as
  constructor
  case counted => exact hcounts.inTurn.getElem_eq
  case apart => exact hcounts.inTurn.apart
  case measured =>
    intro e w hfree hu
    exact (hcounts.sound.ready hfree).next w hu
  case judged =>
    intro e w p x y hfree hu hc hne
    exact (hcounts.sound.ready hfree).failure_iff henforce hu _ hc hne
  case refused =>
    intro e w transport bytes p last hfree hu hp hc hne hlast hid
    exact hcounts.rebuffs henforce hfree hu transport hp hc hne hlast hid

/-- A packet that comes again, one that was lost, and the one after the largest id. -/
theorem resent_packet_refused :
    let config : Config := { enforceSequence := true }
    let first : Scene 1 2 Volume FileHandle Unit := initial config ⟨1, 1⟩ (Volume.fresh 1 16)
    let send (command : Command) (id : UInt32) (payload : Bytes) : Action Volume Unit :=
      .request (.frame .instant (Packet.frame ⟨command, id, payload⟩))
    let as := [send .openFile 9 [97], send .writeFile 0xFFFFFFFF [1, 2, 3],
      send .writeFile 0xFFFFFFFF [1, 2, 3], send .writeFile 1 [5], send .writeFile 0 [4, 5]]
    let answer (status : Status) : Event Unit := .answered (.served (.ok status) [.ofStatus status])
    config.enforceSequence = true ∧
    first.events as = [answer .success, answer .success, answer .sequenceError,
      answer .sequenceError, answer .success] ∧
    first.ids [] as = [0xFFFFFFFF, 0] ∧
    (first.after (as ++ [send .closeFile 0 []])).device.store.contents? [97] =
      some [1, 2, 3, 4, 5] ∧
    (first.after as).Sequenced [0xFFFFFFFF, 0] := by
  intro config first send as answer
  have hids : first.ids [] as = [0xFFFFFFFF, 0] := by decide +kernel
  refine ⟨rfl, by decide +kernel, hids, by decide +kernel, ?_⟩
  rw [← hids]
  exact packets_in_turn rfl _ as

end Scene

end PanelLink
