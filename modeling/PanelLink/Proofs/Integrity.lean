import PanelLink.Proofs.Standing

/-!
An upload that fails never corrupts its file: what is there is what was there before, and behind it
a prefix of what the host sent.
-/
namespace PanelLink

open Recorded Device

variable {size chunk : Nat} {ι ε : Type} [Disturbance ι]

/-- Nothing outside of the commands touches the record of the calls. -/
def Aside.SparesBooks : Aside (Recorded (Disturbed ι Volume)) → Prop
  | .alter change => ∀ r, (change r).issued = r.issued ∧ (change r).calls = r.calls
  | _ => True

/-- Nothing outside of the commands touches the store but to set its faults and limits. -/
def Aside.Injects : Aside (Recorded (Disturbed ι Volume)) → Prop
  | .alter change => ∀ r, ∃ i fault,
      change r = { r with store := ⟨i, { r.store.store with readFault := fault }⟩ }
  | _ => True

theorem injects_leaves : Leaves (Aside.Injects : Aside (Recorded (Disturbed ι Volume)) → Prop) := by
  intro change r ha
  obtain ⟨i, fault, hr⟩ := ha r
  rw [hr]
  exact ⟨rfl, rfl, rfl⟩

namespace Scene

/-- The scene comes about on some store, whatever is done to the store beside it; the endpoint may
be given up for another one at any time. -/
inductive Reachable : Scene size chunk (Recorded (Disturbed ι Volume)) (Ticket FileHandle) ε → Prop
  | initial (config : Config) (timing : Timing) (store : Disturbed ι Volume) :
      Reachable (initial config timing (.ofStore store))
  | act {s : Scene size chunk (Recorded (Disturbed ι Volume)) (Ticket FileHandle) ε}
      {a : Action (Recorded (Disturbed ι Volume)) ε} : Reachable s →
      (∀ x, a = .aside x → x.SparesBooks) → Reachable (s.act a).2
  | restart {s : Scene size chunk (Recorded (Disturbed ι Volume)) (Ticket FileHandle) ε}
      (config : Config) : Reachable s → Reachable ⟨s.device, .free (.initial config)⟩

/-- The upload with the handle `n` goes on: its file holds `base` and the whole chunks of `stream`,
and the rest is pending. -/
structure Uploads (s : Scene size chunk (Recorded (Disturbed ι Volume)) (Ticket FileHandle) ε)
    (n : Nat) (path base stream : Bytes) : Prop where
  unclosed : s.device.store.closes n = 0
  contents : s.contents? path = some (base ++ wholeChunks chunk stream)
  pending : ∀ e, s.hand = .free e → ∃ w, e.upload = some w ∧ w.file.number = n ∧
    w.chunk.pending = unfilledChunk chunk stream

/-- The upload with the handle `n` is over: the handle was closed once, and no session has it. -/
structure UploadOver (s : Scene size chunk (Recorded (Disturbed ι Volume)) (Ticket FileHandle) ε)
    (n : Nat) : Prop where
  closed : s.device.store.closes n = 1
  gone : ∀ e w, s.hand = .free e → e.upload = some w → w.file.number ≠ n

variable {s : Scene size chunk (Recorded (Disturbed ι Volume)) (Ticket FileHandle) ε}
  {n : Nat} {k : Key} {path base stream contents : Bytes}

theorem Reachable.ledger (h : s.Reachable) : s.Entrusted Aside.SparesBooks Recorded.ledger := by
  induction h with
  | initial config timing store =>
    have hfirst : (Recorded.ledger : Custody (Recorded (Disturbed ι Volume)) (Ticket FileHandle)
        (Ticket DirHandle)).store (.ofStore store) := nofun
    exact Entrusted.initial hfirst
  | act _ ha ih =>
    refine ih.act ledger_entire ?_ ha
    intro change r hspares hr
    obtain ⟨hissued, hcalls⟩ := hspares r
    refine ⟨?_, ?_, ?_⟩
    · intro c hc m hm
      rw [hissued]
      exact hr c (by rwa [hcalls] at hc) m hm
    · intro f hf
      show f.number < (change r).issued
      rwa [hissued]
    · intro d hd
      show d.number < (change r).issued
      rwa [hissued]
  | restart config _ ih => exact ⟨ih.under, nofun, ih.under⟩

theorem contents?_of_get? (hk : Volume.key path = .ok k)
    (h : s.device.store.store.store.tree.get? k = some (.file contents)) :
    s.contents? path = some contents := by
  show s.device.store.store.store.contents? path = _
  simp only [Volume.contents?, hk, h, Body.bytes_ofBytes]

/-- An upload whose file stands goes on or is over. -/
theorem Carrying.uploads_or_over (h : s.Carrying Aside.Injects n k base stream)
    (hk : Volume.key path = .ok k) (hstands : s.contents? path ≠ none) :
    s.Uploads n path base stream ∨ s.UploadOver n := by
  have hfree {e : Endpoint chunk (Ticket FileHandle)} (he : s.hand = .free e) :
      GoesOrEnded n k base stream e s.device := h.sound.ready he
  cases h.kept with
  | goes hd =>
    refine .inl ⟨hd.store.2.1, contents?_of_get? hk hd.store.2.2, fun e he => ?_⟩
    cases hfree he with
    | goes w hw hs hf => exact ⟨w, hw, hs.number, hs.pending⟩
    | ended _ hd' =>
      have hzero : s.device.store.closes n = 0 := hd.store.2.1
      have hone : s.device.store.closes n = 1 := hd'.store.2.1
      omega
  | ended hd =>
    refine .inr ⟨hd.store.2.1, fun e w he hw => ?_⟩
    cases hfree he with
    | goes w' hw' hs hf =>
      have hzero : s.device.store.closes n = 0 := hs.holds.2.1
      have hone : s.device.store.closes n = 1 := hd.store.2.1
      omega
    | ended hu _ => exact hu w hw
  | missing hd =>
    obtain ⟨contents, hc⟩ := (contents?_ne_none hk).mp hstands
    exact nomatch hc.symm.trans hd.store.2.2

theorem Entrusted.over (h : s.Entrusted Aside.Injects (closedOnce n)) : s.UploadOver n := by
  refine ⟨h.under.store.2.1, fun e w he hw => ?_⟩
  exact (h.sound.ready he).1 w hw

/-- The bytes that the packet is meant to add to the upload. -/
def offered (p : Packet) : Bytes :=
  if p.command = .writeFile then p.payload else []

/-- When the store fails an upload its handle is closed, and a prefix of the stream and of what the
packet had for it is in the file. -/
theorem Carrying.failure (h : s.Carrying Aside.Injects n k base stream)
    {b : Action (Recorded (Disturbed ι Volume)) ε} {e : Endpoint chunk (Ticket FileHandle)}
    {p : Packet} (hb : s.Hears b e p) (hc : p.command = .writeFile ∨ p.command = .closeFile)
    {u : WriteSession chunk (Ticket FileHandle)} (hu : e.upload = some u) (hn : u.file.number = n)
    {x : CommandError} (hx : e.failure? s.device p = some x) (hstorage : x.isStorage = true) :
    (s.act b).2.Entrusted Aside.Injects (closedOnce n) ∧ ∃ q, q <+: stream ++ offered p ∧
      (s.act b).2.device.store.store.store.tree.get? k = some (.file (base ++ q)) := by
  have hup : GoesOrEnded n k base stream e s.device := h.sound.ready hb.1
  have hclosed {result : Except CommandError Reply} {r : Recorded (Disturbed ι Volume)} {q : Bytes}
      (hf : ∀ f, s.device.file = some f → f.number ≠ n)
      (hy : e.Yields s.device p result { e with upload := none } { s.device with store := r })
      (hr : (watch n 1 (·.tree.get? k = some (.file (base ++ q))) :
        Custody (Recorded (Disturbed ι Volume)) (Ticket FileHandle) (Ticket DirHandle)).store r) :
      (s.act b).2.Entrusted Aside.Injects (closedOnce n) ∧
        (s.act b).2.device.store.store.store.tree.get? k = some (.file (base ++ q)) := by
    refine ⟨?_, ?_⟩
    · refine hb.entrusted watch_entire.toReading (injects_leaves.watch fun _ _ _ hN => hN) hy ?_ ?_
      · exact nofun
      · exact ⟨⟨hr.1, hr.2.1, trivial⟩, hf⟩
    · rw [hb.act_device hy]
      exact hr.2.2
  cases hup with
  | ended hended _ => exact absurd hn (hended u hu)
  | goes u' hu' hs hf =>
    obtain rfl := Option.some.inj (hu.symm.trans hu')
    obtain hc | hc := hc
    · have hoffered : offered p = p.payload := if_pos hc
      rw [hoffered]
      by_cases hpayload : p.payload = []
      · have hy : e.Yields s.device p _ e s.device := yields_writeFile_nothing hc hpayload
        obtain rfl := Option.some.inj (hx.symm.trans hy.failure)
        simp [CommandError.isStorage] at hstorage
      -- Written, or out of sequence, or failed half-way: only the last is a failure of the store.
      obtain ⟨hok, -⟩ | ⟨y, hy, hfail, hsame⟩ | ⟨y, q, hy, hfail, hq, happend⟩ :=
        hs.write p.id p.payload e.config.enforceSequence
      · have hv := (yields_writeFile hc hpayload hu (Prod.ext hok rfl)).no_failure
        simp [hx] at hv
      · have hv := (yields_writeFile_refused hc hpayload hu hfail (Prod.ext hy hsame)).failure
        obtain rfl := Option.some.inj (hx.symm.trans hv)
        simp [hfail] at hstorage
      · obtain ⟨hentrusted, hcontents⟩ :=
          hclosed hf (yields_writeFile_failed hc hpayload hu hfail (Prod.ext hy rfl)) happend.close
        exact ⟨hentrusted, q, hq, hcontents⟩
    · have hne : p.command ≠ .writeFile := by simp [hc]
      have hoffered : offered p = [] := if_neg hne
      rw [hoffered, List.append_nil]
      have hy : e.Yields s.device p _ _ _ := yields_closeFile hc hu
      obtain ⟨hok, -⟩ | ⟨y, q, -, -, hq, hstore⟩ := hs.close
      · rw [hok] at hy
        have hv := hy.no_failure
        simp [hx] at hv
      · obtain ⟨hentrusted, hcontents⟩ := hclosed hf hy hstore
        exact ⟨hentrusted, q, hq, hcontents⟩

/-- An upload that fails never corrupts its file. As long as the file is not removed, nor the store
formatted, either the upload goes on, with whole chunks of the stream in the file and the rest
pending, or it is over; and when a write or the close fails because of the store, it is over for
good, its handle was closed once, and the file holds what it held before and a prefix of what was
sent. -/
theorem failed_upload_keeps_prefix (hchunk : 0 < chunk) (hs : s.Reachable)
    {a : Action (Recorded (Disturbed ι Volume)) ε} (ha : s.Opens a path)
    {bs : List (Action (Recorded (Disturbed ι Volume)) ε)} (hbs : ∀ x, .aside x ∈ bs → x.Injects)
    (hspares : (s.act a).2.Spares path bs) :
    let n := s.device.store.issued
    let base := (s.contents? path).getD []
    let stream := (s.act a).2.stream bs
    let w := (s.act a).2.after bs
    (w.Uploads n path base stream ∨ w.UploadOver n) ∧
    ∀ b e p u x, w.Hears b e p → (p.command = .writeFile ∨ p.command = .closeFile) →
      e.upload = some u → u.file.number = n →
      e.failure? w.device p = some x → x.isStorage = true →
      (∃ q, q <+: stream ++ offered p ∧ (w.act b).2.contents? path = some (base ++ q)) ∧
      ∀ cs, (∀ x, .aside x ∈ cs → x.Injects) → ((w.act b).2.after cs).UploadOver n := by
  intro n base stream w
  obtain ⟨k, hk, hstands, hrun⟩ := ha.after hchunk injects_leaves hs.ledger.under hbs hspares
  refine ⟨hrun.uploads_or_over hk hstands, ?_⟩
  intro b e p u x hb hc hu hn hx hstorage
  obtain ⟨hentrusted, q, hq, hget⟩ := hrun.failure hb hc hu hn hx hstorage
  refine ⟨⟨q, hq, contents?_of_get? hk hget⟩, fun cs hcs => ?_⟩
  exact (hentrusted.after watch_entire (injects_leaves.watch fun _ _ _ hN => hN) hcs).over

/-- The second chunk of an upload meets a fault, and the first one stays. -/
theorem second_chunk_fails :
    let send (command : Command) (id : UInt32) (payload : Bytes) :
        Action (Recorded (Disturbed Mishap Volume)) Unit :=
      .request (.frame .instant (Packet.frame ⟨command, id, payload⟩))
    let fault : Mishap := { fault := some ⟨.write, 1, .io⟩ }
    let s : Scene 1 2 (Recorded (Disturbed Mishap Volume)) (Ticket FileHandle) Unit :=
      initial {} ⟨1, 1⟩ (.ofStore ⟨fault, Volume.fresh 1 8⟩)
    let w := (s.act (send .openFile 0 [97])).2.after [send .writeFile 1 [1, 2, 3]]
    (w.Uploads 0 [97] [] [1, 2, 3] ∨ w.UploadOver 0) ∧
      (∃ q, q <+: [1, 2, 3, 4, 5, 6] ∧
        (w.act (send .writeFile 2 [4, 5, 6])).2.contents? [97] = some q) ∧
      (w.act (send .writeFile 2 [4, 5, 6])).2.UploadOver 0 := by
  intro send fault s w
  have hs : s.Reachable := .initial {} ⟨1, 1⟩ ⟨fault, Volume.fresh 1 8⟩
  have hopen : s.Opens (send .openFile 0 [97]) [97] := by
    refine ⟨_, ⟨.openFile, 0, [97]⟩, ⟨rfl, .instant, _, rfl, ?_⟩, rfl, ?_, ?_⟩
    · rfl
    · rfl
    · decide +kernel
  have hbs : ∀ x, .aside x ∈ [send .writeFile 1 [1, 2, 3]] → x.Injects := by
    intro x hx
    simp [send] at hx
  have hspares : (s.act (send .openFile 0 [97])).2.Spares [97] [send .writeFile 1 [1, 2, 3]] := by
    refine spares_of_contents fun cs hcs => ?_
    obtain rfl | ⟨t, rfl, ht⟩ := List.prefix_cons_iff.mp hcs
    · decide +kernel
    · obtain rfl := List.prefix_nil.mp ht
      decide +kernel
  obtain ⟨hgoes, hfail⟩ := failed_upload_keeps_prefix (by decide) hs hopen hbs hspares
  have hstream : (s.act (send .openFile 0 [97])).2.stream [send .writeFile 1 [1, 2, 3]] =
      [1, 2, 3] := by decide +kernel
  have hbase : (s.contents? [97]).getD [] = [] := by decide +kernel
  let u : WriteSession 2 (Ticket FileHandle) := ⟨⟨0, ⟨[[97]], 2, .appending, 0⟩⟩, ⟨[3]⟩, some 1⟩
  let e : Endpoint 2 (Ticket FileHandle) :=
    { (Endpoint.initial {} : Endpoint 2 (Ticket FileHandle)) with upload := some u }
  have hfree : w.hand = .free e := hand_of_endpoint? (by decide +kernel)
  have hears : w.Hears (send .writeFile 2 [4, 5, 6]) e ⟨.writeFile, 2, [4, 5, 6]⟩ :=
    ⟨hfree, .instant, _, rfl, rfl⟩
  have hx : e.failure? w.device ⟨.writeFile, 2, [4, 5, 6]⟩ =
      some (.storage .io) := by decide +kernel
  obtain ⟨hcontents, hover⟩ := hfail _ e _ u (.storage .io) hears (.inl rfl) rfl rfl hx rfl
  have hnumber : s.device.store.issued = 0 := rfl
  have hover := hover [] nofun
  rw [hstream, hbase, hnumber] at hgoes
  rw [hstream, hbase] at hcontents
  rw [hnumber] at hover
  exact ⟨hgoes, hcontents, hover⟩

end Scene

end PanelLink
