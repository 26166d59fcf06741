import Mathlib.Control.Monad.Basic
import PanelLink.Proofs.Answering
import PanelLink.Proofs.Integrity
import PanelLink.Proofs.Streaming

/-!
An upload that is closed has its file hold what it held before and all that was written, and the
host that asks for the file gets exactly that.
-/
namespace PanelLink

open Recorded Device

deriving instance DecidableEq for Answer, Event

variable {size chunk : Nat} {ι ε : Type} [Disturbance ι]

/-- Nothing is done to the store from outside. -/
def Aside.LeavesStore {σ : Type} : Aside σ → Prop
  | .alter _ => False
  | _ => True

theorem Aside.LeavesStore.leavesFiles {σ φ δ τ : Type} [FileStore σ φ δ] {S : FileStore.Supply σ τ}
    {a : Aside σ} (h : a.LeavesStore) : S.LeavesFiles a := by
  cases a with
  | alter change => exact h.elim
  | _ => trivial

/-- An upload that was closed without a failure has left the volume in use. -/
theorem WriteSession.mounted_of_close {u : WriteSession chunk (Ticket FileHandle)}
    {r : Recorded (Disturbed ι Volume)} (h : (u.close r).1 = .ok ()) :
    (u.close r).2.store.store.mounted = true := by
  have hclose (r : Recorded (Disturbed ι Volume)) (f : Ticket FileHandle)
      (hf : (FileStore.closeFile r f).1 = .ok ()) :
      (FileStore.closeFile r f).2.store.store.mounted = true :=
    Disturbed.mounted_of_closeFile (d := r.store) (f := f.handle) hf
  unfold close at h ⊢
  rcases hflush : u.chunk.flush commit (u.file, r) with ⟨flushed, c, f, r'⟩
  simp only [hflush] at h ⊢
  have hmounted := hclose r' f
  rcases hc : FileStore.closeFile r' f with ⟨_ | _, t⟩
  · rw [hc] at h
    cases flushed with
    | error x => cases h
    | ok => cases h
  · rw [hc] at h hmounted
    cases flushed with
    | error x => cases h
    | ok => exact hmounted rfl

namespace Scene

/-- No failure waits for a call, no limit is set, and reads of the file do not fail. -/
structure Unhindered (s : Scene size chunk (Recorded (Disturbed ι Volume)) (Ticket FileHandle) ε)
    (path : Bytes) : Prop where
  calm : Disturbance.Calm s.device.store.store.disturbance
  readable (k : Key) : Volume.key path = .ok k → s.device.store.store.store.readFault ≠ some k

variable {s : Scene size chunk (Recorded (Disturbed ι Volume)) (Ticket FileHandle) ε}
  {n : Nat} {k : Key} {path base stream contents : Bytes}

/-- When an upload is closed without a failure its file has all the bytes. -/
theorem Carrying.closed (h : s.Carrying Aside.Injects n k base stream)
    {c : Action (Recorded (Disturbed ι Volume)) ε} {e : Endpoint chunk (Ticket FileHandle)}
    {p : Packet} (hb : s.Hears c e p) (hc : p.command = .closeFile)
    {u : WriteSession chunk (Ticket FileHandle)} (hu : e.upload = some u) (hn : u.file.number = n)
    (haccepts : e.accepts s.device p = true) :
    (s.act c).2.Concluded ∧ (s.act c).2.device.Under (offering k (base ++ stream)) := by
  have hup : GoesOrEnded n k base stream e s.device := h.sound.ready hb.1
  have hy : e.Yields s.device p _ _ _ := yields_closeFile hc hu
  refine ⟨(hb.answers hy).1, ?_⟩
  rw [hb.act_device hy]
  cases hup with
  | ended hended _ => exact absurd hn (hended u hu)
  | goes u' hu' hs hf =>
    obtain rfl := Option.some.inj (hu.symm.trans hu')
    obtain ⟨hok, hstore⟩ | ⟨x, q, hx, -⟩ := hs.close
    · exact under_shelf ⟨WriteSession.mounted_of_close hok, hstore.2.2⟩
    · rw [hx] at hy
      simp [hy.accepts, Except.map, Except.toBool] at haccepts

omit [Disturbance ι] in
theorem injects_offering (change : Recorded (Disturbed ι Volume) → Recorded (Disturbed ι Volume))
    (r : Recorded (Disturbed ι Volume)) (ha : Aside.Injects (.alter change))
    (hr : (offering k contents).store r) : (offering k contents).Carries r (change r) := by
  obtain ⟨i, fault, hchange⟩ := ha r
  rw [hchange]
  exact shelf_carries ⟨hr.mounted, hr.node⟩

/-- Without a failure that waits for a call, and with a handle that is good, a file is sent to its
last byte. -/
theorem whole_of_readable {r : Transferred} {transport : Transport ε} {g : UInt32} {sent : Bytes}
    {d w : Device size (Recorded (Disturbed ι Volume)) (Ticket FileHandle)}
    (hk : Volume.key path = .ok k)
    (h : d.Transfers (Resumes Aside.LeavesStore) transport path sent r w)
    (hd : d.store.store.Readable k contents g) : r = .whole := by
  refine h.unfailing (P := (·.store.Readable k contents g))
    (Q := fun t => ∃ number pos, t = ⟨number, ⟨k, pos, .reading, g⟩⟩) ?_ ?_ ?_ ?_ hd
  · intro s hs
    obtain ⟨t, hopen, ht⟩ := Recorded.openFile_readable hs hk
    exact ⟨_, t, hopen, ht, _, _, rfl⟩
  · rintro s _ hs ⟨number, pos, rfl⟩
    obtain ⟨t, hread, ht⟩ := Recorded.read_readable hs number pos Handler.pieceSize
    exact ⟨_, _, t, hread, ht, _, _, rfl⟩
  · rintro s _ hs ⟨number, pos, rfl⟩
    exact (Disturbed.closeFile_readable hs rfl).1
  · intro d w hd hw
    have hmoves := readable_reading.resumes (fun _ _ ha _ => ha.elim) (under_shelf hd) hw
    exact hmoves.carries.store

/-- A file that is there and ends before the last position is sent whole if nothing keeps it from
being read. -/
theorem sends_whole (hd : s.device.Under (offering k contents)) (hk : Volume.key path = .ok k)
    (hshort : contents.length < Bytes.wordLimit)
    {e : Endpoint chunk (Ticket FileHandle)} {p : Packet} {bytes q : Bytes}
    {transport : Transport ε}
    (hhand : s.hand = .free e) (hdecode : Packet.decode bytes = .ok p) (hc : p.command = .cat)
    (hq : e.pathOf p.payload = .ok q) (hqk : Volume.key q = Volume.key path)
    (hfree : s.Unhindered path) (htakes : ∀ n, transport.refuse n = none)
    {es : List (Action (Recorded (Disturbed ι Volume)) ε)}
    (hes : ∀ x ∈ es, x.Waits Aside.LeavesStore)
    (hlooks : transport.waits (contents.length + 1) ≤ looks es) :
    ∃ frames, Pieces contents frames ∧
      .answered (.served (.ok .success) (frames ++ [Handler.done])) ∈
      s.events (.request (.frame transport bytes) :: es) := by
  let S : FileStore.Supply (Recorded (Disturbed ι Volume)) Tree := (Disturbed.supply ι).recorded
  have hcalm : Disturbance.Calm s.device.store.store.disturbance := hfree.calm
  have hserves : S.Serves s.device.store.store.store.tree s.device.store := ⟨rfl, hcalm.flowing⟩
  have hholds : S.Holds s.device.store.store.store.tree q contents :=
    ⟨k, hqk.trans hk, hd.store.node, hshort⟩
  have hlasts : S.Lasts s.device.store.store.store.tree
      (Resumes Aside.LeavesStore : Pause → Device size _ _ → Device size _ _ → Prop) :=
    FileStore.Supply.lasts fun _ ha => ha.leavesFiles
  have hrun := Request.cat_transfers hlasts hdecode hc hq hholds htakes hserves
  obtain ⟨x, w, ⟨sent, result, frames, v, htransfers, -, hpieces, rfl⟩, hmem⟩ :=
    request_within hhand hrun hes hlooks
  have hreadable : s.device.store.store.Readable k contents s.device.store.store.store.generation :=
    ⟨hfree.calm, hd.store, rfl, hfree.readable k hk⟩
  obtain rfl := whole_of_readable (hqk.trans hk) htransfers hreadable
  obtain rfl := (htransfers.exact hlasts hserves hholds).2.2 rfl
  exact ⟨frames, hpieces, hmem⟩

/-- The round trip of an upload. Whatever else happens between its beginning and its end, as long as
its file is not removed, nor the store formatted: when it is closed the file holds what it held
before and the bytes of the writes that were carried out, in order; these are the writes that the
host is told of as successful, but for those of which the transport refuses to tell it. And when the
host asks for the file then, it gets exactly these bytes. -/
theorem upload_round_trip (hchunk : 0 < chunk) (hs : s.Reachable)
    {a : Action (Recorded (Disturbed ι Volume)) ε} (ha : s.Opens a path)
    {bs : List (Action (Recorded (Disturbed ι Volume)) ε)} (hbs : ∀ x, .aside x ∈ bs → x.Injects)
    (hspares : (s.act a).2.Spares path bs)
    {c : Action (Recorded (Disturbed ι Volume)) ε} {e : Endpoint chunk (Ticket FileHandle)}
    {p : Packet} {u : WriteSession chunk (Ticket FileHandle)}
    (hhears : ((s.act a).2.after bs).Hears c e p) (hc : p.command = .closeFile)
    (hu : e.upload = some u) (hn : u.file.number = s.device.store.issued)
    (haccepts : e.accepts ((s.act a).2.after bs).device p = true) :
    let contents := (s.contents? path).getD [] ++ (s.act a).2.stream bs
    let w := (((s.act a).2.after bs).act c).2
    (∀ cs b e p, cs ++ [b] <+: bs → ((s.act a).2.after cs).Hears b e p → p.command = .writeFile →
      ∃ answer replies, ((s.act a).2.after cs).Answers b (.served answer replies) ∧
        (answer = .ok .success → e.accepts ((s.act a).2.after cs).device p = true) ∧
        (e.accepts ((s.act a).2.after cs).device p = true →
          answer = .ok .success ∨ ∃ x, answer = .error x)) ∧
    ∀ ds, (∀ x ∈ ds, x.Waits Aside.Injects) →
      (w.after ds).contents? path = some contents ∧
      ∀ e p q bytes (transport : Transport ε), (w.after ds).hand = .free e →
        Packet.decode bytes = .ok p → p.command = .cat → e.pathOf p.payload = .ok q →
        Volume.key q = Volume.key path → contents.length < Bytes.wordLimit →
        (w.after ds).Unhindered path → (∀ n, transport.refuse n = none) →
        ∀ es, (∀ x ∈ es, x.Waits Aside.LeavesStore) →
        transport.waits (contents.length + 1) ≤ looks es →
        ∃ frames, Pieces contents frames ∧
          .answered (.served (.ok .success) (frames ++ [Handler.done])) ∈
            (w.after ds).events (.request (.frame transport bytes) :: es) := by
  intro contents w
  obtain ⟨k, hk, -, hrun⟩ := ha.after hchunk injects_leaves hs.ledger.under hbs hspares
  obtain ⟨hconcluded, hunder⟩ := hrun.closed hhears hc hu hn haccepts
  refine ⟨fun cs b e p _ hb hw => hb.told (.inr (.inl hw)), fun ds hds => ?_⟩
  have hd := hconcluded.after offering_reading injects_offering hunder hds
  refine ⟨contents?_of_get? hk hd.store.node, ?_⟩
  intro e p q bytes transport hhand hdecode hcat hq hqk hshort hfree htakes es hes hlooks
  exact sends_whole hd hk hshort hhand hdecode hcat hq hqk hfree htakes hes hlooks

/-- Three bytes in two packets, of which the answer to the second is refused, come back as one
piece. -/
theorem three_bytes_come_back :
    let send (transport : Transport Unit) (command : Command) (id : UInt32) (payload : Bytes) :
        Action (Recorded (Disturbed Mishap Volume)) Unit :=
      .request (.frame transport (Packet.frame ⟨command, id, payload⟩))
    let calm : Mishap := { fault := none }
    let s : Scene 1 2 (Recorded (Disturbed Mishap Volume)) (Ticket FileHandle) Unit :=
      initial {} ⟨1, 1⟩ (.ofStore ⟨calm, Volume.fresh 1 8⟩)
    let bs := [send .instant .writeFile 1 [1, 2], send ⟨fun _ => some (), false⟩ .writeFile 2 [3]]
    let w := (((s.act (send .instant .openFile 0 [97])).2.after bs).act
      (send .instant .closeFile 3 [])).2
    w.contents? [97] = some [1, 2, 3] ∧
      ∃ frames, Pieces [1, 2, 3] frames ∧
        .answered (.served (.ok .success) (frames ++ [Handler.done])) ∈
          w.events [send .instant .cat 4 [97]] := by
  intro send calm s bs w
  have hs : s.Reachable := .initial {} ⟨1, 1⟩ ⟨calm, Volume.fresh 1 8⟩
  have hopen : s.Opens (send .instant .openFile 0 [97]) [97] := by
    refine ⟨_, ⟨.openFile, 0, [97]⟩, ⟨rfl, .instant, _, rfl, ?_⟩, rfl, ?_, ?_⟩
    · rfl
    · rfl
    · decide +kernel
  have hbs : ∀ x, .aside x ∈ bs → x.Injects := by
    intro x hx
    simp [bs, send] at hx
  have hspares : (s.act (send .instant .openFile 0 [97])).2.Spares [97] bs := by
    refine spares_of_contents fun cs hcs => ?_
    obtain rfl | ⟨t, rfl, ht⟩ := List.prefix_cons_iff.mp hcs
    · decide +kernel
    · obtain rfl | ⟨t', rfl, ht'⟩ := List.prefix_cons_iff.mp ht
      · decide +kernel
      · obtain rfl := List.prefix_nil.mp ht'
        decide +kernel
  let u : WriteSession 2 (Ticket FileHandle) := ⟨⟨0, ⟨[[97]], 2, .appending, 0⟩⟩, ⟨[3]⟩, some 2⟩
  let e : Endpoint 2 (Ticket FileHandle) :=
    { (Endpoint.initial {} : Endpoint 2 (Ticket FileHandle)) with upload := some u }
  have hfree : ((s.act (send .instant .openFile 0 [97])).2.after bs).hand = .free e :=
    hand_of_endpoint? (by decide +kernel)
  have hhears : ((s.act (send .instant .openFile 0 [97])).2.after bs).Hears
      (send .instant .closeFile 3 []) e ⟨.closeFile, 3, []⟩ :=
    ⟨hfree, .instant, _, rfl, rfl⟩
  have haccepts : e.accepts ((s.act (send .instant .openFile 0 [97])).2.after bs).device
      ⟨.closeFile, 3, []⟩ = true := by decide +kernel
  obtain ⟨-, hround⟩ :=
    upload_round_trip (by decide) hs hopen hbs hspares hhears rfl rfl rfl haccepts
  have hnone (v : Scene 1 2 (Recorded (Disturbed Mishap Volume)) (Ticket FileHandle) Unit) :
      v.after [] = v := rfl
  obtain ⟨hcontents, hcat⟩ := hround [] (by simp)
  rw [hnone] at hcontents hcat
  have hbytes : (s.contents? [97]).getD [] ++
      (s.act (send .instant .openFile 0 [97])).2.stream bs = [1, 2, 3] := by decide +kernel
  have hidle : w.hand = .free (.initial {}) := hand_of_endpoint? (by decide +kernel)
  have hclear : w.Unhindered [97] := by
    constructor
    · exact Disturbance.calm_mishap (by decide +kernel) (by decide +kernel)
    · have hfault : w.device.store.store.store.readFault = none := by decide +kernel
      intro k _
      rw [hfault]
      exact nofun
  have hsent :=
    hcat (.initial {}) ⟨.cat, 4, [97]⟩ [97] (Packet.frame ⟨.cat, 4, [97]⟩) .instant hidle
    rfl rfl rfl rfl (by rw [hbytes]; decide) hclear (fun _ => rfl) [] (by simp)
    (by simp [Transport.waits, Transport.instant])
  rw [hbytes] at hcontents hsent
  exact ⟨hcontents, hsent⟩

/-- The bytes of a write are stored even if its answer is refused: here no write is answered with
success, and the file holds a byte that was not there before. -/
theorem refused_write_stays :
    let send (transport : Transport Unit) (command : Command) (id : UInt32) (payload : Bytes) :
        Action (Recorded (Disturbed Mishap Volume)) Unit :=
      .request (.frame transport (Packet.frame ⟨command, id, payload⟩))
    let calm : Mishap := { fault := none }
    let s : Scene 8 16 (Recorded (Disturbed Mishap Volume)) (Ticket FileHandle) Unit :=
      initial {} ⟨1, 1⟩ (.ofStore ⟨calm, Volume.fresh 1 8⟩)
    let as := [send .instant .openFile 0 [97], send ⟨fun _ => some (), false⟩ .writeFile 1 [5],
      send .instant .closeFile 2 []]
    s.Reachable ∧
      s.events as = [.answered (.served (.ok .success) [Handler.done]),
        .answered (.served (.error ()) []), .answered (.served (.ok .success) [Handler.done])] ∧
      (s.after as).contents? [97] = some [5] ∧
      (s.after as).contents? [97] ≠ some ((s.contents? [97]).getD []) := by
  intro send calm s as
  have hcontents : (s.after as).contents? [97] = some [5] := by decide +kernel
  have hbefore : (s.contents? [97]).getD [] = [] := by decide +kernel
  refine ⟨.initial {} ⟨1, 1⟩ ⟨calm, Volume.fresh 1 8⟩, ?_, hcontents, ?_⟩
  · decide +kernel
  · rw [hcontents, hbefore]
    decide

end Scene

end PanelLink
