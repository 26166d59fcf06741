import PanelLink.Proofs.Sending

/-!
Sending a file of any store. What a store has to promise of its files is stated once, and the pieces
of a file then come to as much of it as could be read. A disturbed volume keeps the promise with the
files that end before the last position.
-/
namespace PanelLink

open Device

variable {size chunk : Nat} {ι σ φ δ τ ε : Type}

/-! ## Files that are read in order -/

/-- A store that gives its files out in order: a read gives some of the bytes to come, at least one
and no more than it was asked for, until there are none. Any call may fail, and none of those that
reading takes changes what the store holds. -/
structure FileStore.Supply (σ : Type) {φ δ : Type} [FileStore σ φ δ] (τ : Type) where
  /-- All that the store holds. -/
  tree : σ → τ
  /-- Reads are not cut to nothing. -/
  Flows : σ → Prop
  /-- The file at a path has these contents. -/
  Holds : τ → Bytes → Bytes → Prop
  /-- These bytes of its file lie ahead of a handle. -/
  Ahead : τ → φ → Bytes → Prop
  openFile_keeps {s : σ} {path contents : Bytes} : Flows s → Holds (tree s) path contents →
    tree (openFile s path .reading).2 = tree s ∧ Flows (openFile s path .reading).2
  closeFile_keeps {s : σ} (f : φ) : Flows s →
    tree (closeFile s f).2 = tree s ∧ Flows (closeFile s f).2
  read_keeps {s : σ} (f : φ) (n : Nat) : Flows s →
    tree (read s f n).2.2 = tree s ∧ Flows (read s f n).2.2
  seek_keeps {s : σ} (f : φ) (whence : SeekFrom) : Flows s →
    tree (seek s f whence).2.2 = tree s ∧ Flows (seek s f whence).2.2
  openFile_ahead {s t : σ} {path contents : Bytes} {f : φ} : Flows s →
    Holds (tree s) path contents → openFile s path .reading = (.ok f, t) → Ahead (tree s) f contents
  read_ahead {s t : σ} {f g : φ} {n : Nat} {rest bytes : Bytes} : Flows s →
    Ahead (tree s) f rest → 0 < n → read s f n = (.ok bytes, g, t) →
      ∃ more, rest = bytes ++ more ∧ bytes.length ≤ n ∧ (bytes = [] → rest = []) ∧
        Ahead (tree s) g more
  length_le_bytesLeft {s : σ} {f : φ} {rest : Bytes} : Ahead (tree s) f rest →
    rest.length ≤ bytesLeft s f

namespace FileStore.Supply

variable [FileStore σ φ δ] {S : Supply σ τ} {T : τ} {s t : σ}

/-- The store holds `T`, and its files can be read. -/
structure Serves (S : Supply σ τ) (T : τ) (s : σ) : Prop where
  tree : S.tree s = T
  flows : S.Flows s

theorem Serves.of_keeps (h : S.Serves T s) (ht : S.tree t = S.tree s ∧ S.Flows t) :
    S.Serves T t :=
  ⟨ht.1.trans h.tree, ht.2⟩

def recorded (S : Supply σ τ) : Supply (Recorded σ) τ where
  tree r := S.tree r.store
  Flows r := S.Flows r.store
  Holds := S.Holds
  Ahead T t := S.Ahead T t.handle
  openFile_keeps {r path _} hr hc := by
    obtain ⟨-, hstore⟩ := r.issue_view .openFile (FileStore.openFile · path .reading) id
    show S.tree (r.issue _ _).2.store = _ ∧ S.Flows (r.issue _ _).2.store
    rw [hstore]
    exact S.openFile_keeps hr hc
  closeFile_keeps t := S.closeFile_keeps t.handle
  read_keeps t := S.read_keeps t.handle
  seek_keeps t := S.seek_keeps t.handle
  openFile_ahead {r u path _ t} hr hc ho := by
    have hissue : r.issue .openFile (FileStore.openFile · path .reading) = (.ok t, u) := ho
    rcases hopen : FileStore.openFile r.store path .reading with ⟨e | f, s⟩
    · simp [Recorded.issue, hopen] at hissue
    · simp only [Recorded.issue, hopen, Prod.mk.injEq, Except.ok.injEq] at hissue
      obtain ⟨rfl, -⟩ := hissue
      exact S.openFile_ahead hr hc hopen
  read_ahead {r u t g n _ _} hr hahead hn hread := by
    have hcall := congrArg (fun x => (x.1, x.2.1.handle, x.2.2.store)) hread
    exact S.read_ahead hr hahead hn hcall
  length_le_bytesLeft := S.length_le_bytesLeft

def custody (S : Supply σ τ) (T : τ) : Custody σ φ δ where
  store := S.Serves T
  file _ _ := True
  dir _ _ := True

theorem Serves.carries (h : S.Serves T t) : (S.custody T).Carries s t :=
  ⟨h, fun _ hf => hf, fun _ hd => hd⟩

theorem custody_reading : (S.custody T).Reading where
  read {_ f} n hs _ := ⟨(hs.of_keeps (S.read_keeps f n hs.flows)).carries, trivial⟩
  seek {_ f} whence hs _ := ⟨(hs.of_keeps (S.seek_keeps f whence hs.flows)).carries, trivial⟩

/-- The aside changes no file and cuts no read to nothing; calls may fail. -/
def LeavesFiles (S : Supply σ τ) : Aside σ → Prop
  | .alter change => ∀ s, S.Flows s → S.tree (change s) = S.tree s ∧ S.Flows (change s)
  | _ => True

/-- Pauses leave what the store holds as it is. -/
def Lasts (S : Supply σ τ) (T : τ) (R : Pause → Device size σ φ → Device size σ φ → Prop) : Prop :=
  ∀ d w, S.Serves T d.store → R .delivery d w → S.Serves T w.store

theorem lasts {ok : Aside σ → Prop} (hok : ∀ a, ok a → S.LeavesFiles a) :
    S.Lasts T (Resumes ok : Pause → Device size σ φ → Device size σ φ → Prop) := by
  intro d w hd h
  have hcarries (change) (s : σ) (ha : ok (.alter change)) (hs : S.Serves T s) :
      (S.custody T).Carries s (change s) :=
    (hs.of_keeps (hok _ ha s hs.flows)).carries
  have hunder : d.Under (S.custody T) := ⟨hd, fun _ _ => trivial⟩
  exact (custody_reading.resumes hcarries hunder h).carries.store

end FileStore.Supply

/-! ## What goes out -/

section

variable [FileStore σ φ δ] {R : Pause → Device size σ φ → Device size σ φ → Prop}
  {t : Transport ε} {d w : Device size σ φ} {f g : φ} {sent : Bytes}
  {result : Except StorageError Unit}

/-- The pieces of a file go out, each of them through before the next read: the bytes that were read
until a read failed or gave none, and the handle and the device then. -/
inductive Device.Relays (R : Pause → Device size σ φ → Device size σ φ → Prop) (t : Transport ε) :
    Device size σ φ → φ → Bytes → Except StorageError Unit → φ → Device size σ φ → Prop
  | ended {d : Device size σ φ} {f f' : φ} {s : σ} :
      FileStore.read d.store f Handler.pieceSize = (.ok [], f', s) →
      Relays R t d f [] (.ok ()) f' { d with store := s }
  | failed {d : Device size σ φ} {f f' : φ} {s : σ} {e : StorageError} :
      FileStore.read d.store f Handler.pieceSize = (.error e, f', s) →
      Relays R t d f [] (.error e) f' { d with store := s }
  | piece {d v w : Device size σ φ} {f f' g : φ} {s : σ} {bytes sent : Bytes}
      {result : Except StorageError Unit} :
      FileStore.read d.store f Handler.pieceSize = (.ok bytes, f', s) → bytes ≠ [] →
      t.Delivers R { d with store := s } v → Relays R t v f' sent result g w →
      Relays R t d f (bytes ++ sent) result g w

inductive Transferred where
  | unopened (e : StorageError)
  | unread (e : StorageError)
  | unclosed (e : StorageError)
  | whole

namespace Transferred

def ofOpened : Except StorageError Unit → Except StorageError Unit → Transferred
  | .error e, _ => unread e
  | .ok (), .error e => unclosed e
  | .ok (), .ok () => whole

def failure : Transferred → Option StorageError
  | unopened e => some e
  | unread e => some e
  | unclosed e => some e
  | whole => none

def readOut : Transferred → Bool
  | unopened _ => false
  | unread _ => false
  | unclosed _ => true
  | whole => true

def status (r : Transferred) : Status :=
  r.failure.elim .success (·.status)

def outcome (r : Transferred) : Except CommandError Reply :=
  r.failure.elim (.ok Handler.done) fun e => .error (.storage e)

theorem ok_of_readOut {result closed : Except StorageError Unit}
    (h : (ofOpened result closed).readOut = true) : result = .ok () := by
  cases result with
  | error e => cases h
  | ok => rfl

theorem outcome_ofOpened (result closed : Except StorageError Unit) :
    (ofOpened result closed).outcome = (do
      let _ ← result.mapError CommandError.storage
      let _ ← closed.mapError CommandError.storage
      return Handler.done) := by
  cases result with
  | error e => rfl
  | ok => cases closed <;> rfl

theorem finalReply_outcome (r : Transferred) : finalReply r.outcome = .ofStatus r.status := by
  cases r <;> rfl

end Transferred

/-- The file at a path is sent: the bytes that went out, the result, and the device then. -/
inductive Device.Transfers (R : Pause → Device size σ φ → Device size σ φ → Prop) (t : Transport ε)
    (path : Bytes) (d : Device size σ φ) : Bytes → Transferred → Device size σ φ → Prop
  | unopened {s : σ} {e : StorageError} :
      FileStore.openFile d.store path .reading = (.error e, s) →
      Transfers R t path d [] (.unopened e) { d with store := s }
  | opened {s s' : σ} {f g : φ} {sent : Bytes} {result closed : Except StorageError Unit}
      {w : Device size σ φ} :
      FileStore.openFile d.store path .reading = (.ok f, s) →
      Relays R t { d with store := s, held := true } f sent result g w →
      FileStore.closeFile w.store g = (closed, s') →
      Transfers R t path d sent (.ofOpened result closed) { w with store := s', held := false }

/-- A quick transport leaves nobody time to touch more than the store. -/
theorem Device.Relays.quick (h : Relays R t d f sent result g w) (ht : t.slow = false) :
    w = { d with store := w.store } := by
  induction h with
  | ended hread => rfl
  | failed hread => rfl
  | piece hread hne hdelivers hrest ih =>
    unfold Transport.Delivers at hdelivers
    rw [if_neg (by simp [ht])] at hdelivers
    subst hdelivers
    exact ih

theorem Device.Transfers.quick {path : Bytes} {r : Transferred}
    (h : Transfers R t path d sent r w) (ht : t.slow = false) (hd : d.held = false) :
    w = { d with store := w.store } := by
  obtain ⟨store, held⟩ := d
  obtain rfl : held = false := hd
  cases h with
  | unopened hopen => rfl
  | opened hopen hsent hclose => rw [hsent.quick ht]

end

/-! ## How much of the file it is -/

section

variable [FileStore σ φ δ] {S : FileStore.Supply σ τ} {T : τ}
  {R : Pause → Device size σ φ → Device size σ φ → Prop} {t : Transport ε} {d w : Device size σ φ}
  {f g : φ} {path contents rest sent : Bytes}

theorem Transport.Delivers.serves (hR : S.Lasts T R) (h : t.Delivers R d w)
    (hd : S.Serves T d.store) : S.Serves T w.store :=
  h.keeps hd fun w hw => hR d w hd hw

/-- The pieces come to what follows in the file, as far as reads gave it. -/
theorem Device.Relays.exact {result : Except StorageError Unit} (hR : S.Lasts T R)
    (h : Relays R t d f sent result g w) (hd : S.Serves T d.store) (hf : S.Ahead T f rest) :
    S.Serves T w.store ∧ sent <+: rest ∧ (result = .ok () → sent = rest) := by
  have hkeeps {d : Device size σ φ} {f f' : φ} {s : σ} {r : Except StorageError Bytes}
      (hd : S.Serves T d.store) (hread : FileStore.read d.store f Handler.pieceSize = (r, f', s)) :
      S.Serves T s := by
    have hs := hd.of_keeps (S.read_keeps f Handler.pieceSize hd.flows)
    rwa [hread] at hs
  induction h generalizing rest with
  | @ended d f f' s hread =>
    obtain rfl := hd.tree
    obtain ⟨more, -, -, hend, -⟩ := S.read_ahead hd.flows hf (by decide) hread
    exact ⟨hkeeps hd hread, List.nil_prefix, fun _ => (hend rfl).symm⟩
  | @failed d f f' s e hread => exact ⟨hkeeps hd hread, List.nil_prefix, nofun⟩
  | @piece d v w f f' g s bytes sent result hread hne hdelivers hrest ih =>
    have hs := hkeeps hd hread
    obtain rfl := hd.tree
    obtain ⟨more, rfl, -, -, hmore⟩ := S.read_ahead hd.flows hf (by decide) hread
    obtain ⟨hw, hprefix, hwhole⟩ := ih (hdelivers.serves hR hs) hmore
    exact ⟨hw, (List.prefix_append_right_inj bytes).mpr hprefix, fun hr => by rw [hwhole hr]⟩

/-- What goes out of a file is a first part of it, and all if it was read to its end. -/
theorem Device.Transfers.exact {r : Transferred} (hR : S.Lasts T R)
    (h : Transfers R t path d sent r w) (hd : S.Serves T d.store)
    (hf : S.Holds T path contents) :
    S.Serves T w.store ∧ sent <+: contents ∧ (r.readOut = true → sent = contents) := by
  obtain rfl := hd.tree
  have hs := hd.of_keeps (S.openFile_keeps hd.flows hf)
  cases h with
  | unopened hopen =>
    rw [hopen] at hs
    exact ⟨hs, List.nil_prefix, nofun⟩
  | @opened s s' f g sent result closed w hopen hsent hclose =>
    rw [hopen] at hs
    obtain ⟨hw, hprefix, hwhole⟩ := hsent.exact hR hs (S.openFile_ahead hd.flows hf hopen)
    have hclosed := hw.of_keeps (S.closeFile_keeps g hw.flows)
    rw [hclose] at hclosed
    exact ⟨hclosed, hprefix, fun hr => hwhole (Transferred.ok_of_readOut hr)⟩

/-- If no read can fail then the file is read to its end. -/
theorem Device.Relays.unfailing {P : σ → Prop} {Q : φ → Prop} {result : Except StorageError Unit}
    (hread : ∀ s f, P s → Q f → ∃ bytes g u,
      FileStore.read s f Handler.pieceSize = (.ok bytes, g, u) ∧ P u ∧ Q g)
    (hR : ∀ d w, P d.store → R .delivery d w → P w.store) (h : Relays R t d f sent result g w)
    (hd : P d.store) (hf : Q f) : result = .ok () ∧ P w.store ∧ Q g := by
  induction h with
  | @ended d f f' s hcall =>
    obtain ⟨bytes, g, u, hgiven, hu, hg⟩ := hread d.store f hd hf
    cases hcall.symm.trans hgiven
    exact ⟨rfl, hu, hg⟩
  | @failed d f f' s e hcall =>
    obtain ⟨bytes, g, u, hgiven, -⟩ := hread d.store f hd hf
    cases hcall.symm.trans hgiven
  | @piece d v w f f' g s bytes sent result hcall _ hdelivers _ ih =>
    obtain ⟨bytes, g, u, hgiven, hu, hg⟩ := hread d.store f hd hf
    cases hcall.symm.trans hgiven
    exact ih (hdelivers.keeps (P := fun d => P d.store) hu fun w => hR _ w hu) hg

/-- If no call can fail then the file is sent whole. -/
theorem Device.Transfers.unfailing {P : σ → Prop} {Q : φ → Prop} {r : Transferred}
    (hopen : ∀ s, P s → ∃ f u, FileStore.openFile s path .reading = (.ok f, u) ∧ P u ∧ Q f)
    (hread : ∀ s f, P s → Q f → ∃ bytes g u,
      FileStore.read s f Handler.pieceSize = (.ok bytes, g, u) ∧ P u ∧ Q g)
    (hclose : ∀ s f, P s → Q f → (FileStore.closeFile s f).1 = .ok ())
    (hR : ∀ d w, P d.store → R .delivery d w → P w.store) (h : Transfers R t path d sent r w)
    (hd : P d.store) : r = .whole := by
  obtain ⟨f, u, hopened, hu, hf⟩ := hopen d.store hd
  cases h with
  | unopened hcall => cases hcall.symm.trans hopened
  | @opened s s' f' g sent result closed w hcall hsent hclosed =>
    cases hcall.symm.trans hopened
    obtain ⟨rfl, hw, hg⟩ := hsent.unfailing hread hR hu hf
    have hok := hclose w.store g hw hg
    rw [hclosed] at hok
    obtain rfl : closed = .ok () := hok
    rfl

/-! ## Cat -/

namespace Handler

variable {s : Serving chunk φ ε}

private theorem sendPieces_relays (hR : S.Lasts T R) {n : Nat} (hn : rest.length < n)
    (ho : s.outbox.Free) (hd : S.Serves T d.store) (hf : S.Ahead T f rest) :
    ((sendPieces n f).on s d).Within R
      (fun x w => ∃ sent result rs, Relays R s.outbox.transport d f sent result x.1.2 w ∧
        Pieces sent rs ∧ x.1.1 = result.mapError .storage ∧
        x.2 = { s with outbox := s.outbox.took rs })
      (s.outbox.transport.waits rest.length) := by
  -- Each piece leaves fewer bytes to come, so the tries last until a read fails or gives nothing.
  induction n generalizing f rest s d with
  | zero => omega
  | succ n ih =>
    have ht := hd.of_keeps (S.read_keeps f pieceSize hd.flows)
    rcases hread : FileStore.read d.store f pieceSize with ⟨e | bytes, f', t⟩
    · rw [on_sendPieces, hread]
      refine (Run.within_done _ _).mpr ⟨[], .error e, [], .failed hread, .nil, rfl, ?_⟩
      rw [Outbox.took_nil]
    rw [hread] at ht
    by_cases hnil : bytes = []
    · rw [hnil] at hread
      rw [on_sendPieces_nil hread]
      refine (Run.within_done _ _).mpr ⟨[], .ok (), [], .ended hread, .nil, rfl, ?_⟩
      rw [Outbox.took_nil]
    · obtain rfl := hd.tree
      obtain ⟨more, rfl, hsize, -, hmore⟩ := S.read_ahead hd.flows hf (by decide) hread
      have hpos : 0 < bytes.length := List.length_pos_iff.mpr hnil
      rw [List.length_append] at hn ⊢
      have hwaits : s.outbox.transport.waits 1 + s.outbox.transport.waits more.length ≤
          s.outbox.transport.waits (bytes.length + more.length) := by
        apply Transport.waits_le
        omega
      rw [on_sendPieces_cons hread hnil (pieceReply_eq hsize)]
      refine ((send_delivers ho _).bind fun x w hx => ?_).mono hwaits
      obtain ⟨rfl, hw⟩ := hx
      have hrest := ih (s := { s with outbox := s.outbox.took _ }) (by omega)
        (ho.took [⟨.success, UInt8.ofNat bytes.length :: bytes⟩]) (hw.serves hR ht) hmore
      refine hrest.imp fun x w' hx => ?_
      obtain ⟨sent, result, rs, hrelays, hpieces, hresult, hs⟩ := hx
      refine ⟨bytes ++ sent, result, _, .piece hread hnil hw hrelays, hpieces.cons hnil hsize,
        hresult, ?_⟩
      rw [hs, Outbox.took_took]
      rfl

private theorem on_cat_unopened {payload : Bytes} {t : σ} {e : StorageError}
    (hp : s.endpoint.pathOf payload = .ok path)
    (ho : FileStore.openFile d.store path .reading = (.error e, t)) :
    Handler.on (cat payload) s d = .done (.error (.storage e), s) { d with store := t } := by
  unfold cat
  simp only [on_bind, on_pathArgument, hp, mapError_ok, Run.done_bind, next_ok, on_callStore, ho,
    mapError_error, next_error]

theorem cat_transfers (hR : S.Lasts T R) {payload : Bytes}
    (hp : s.endpoint.pathOf payload = .ok path) (hf : S.Holds T path contents)
    (ho : s.outbox.Free) (hd : S.Serves T d.store) :
    (Handler.on (cat payload) s d).Within R
      (fun x w => ∃ sent result rs, d.Transfers R s.outbox.transport path sent result w ∧
        Pieces sent rs ∧ x = (result.outcome, { s with outbox := s.outbox.took rs }))
      (s.outbox.transport.waits contents.length) := by
  obtain rfl := hd.tree
  have ht := hd.of_keeps (S.openFile_keeps hd.flows hf)
  rcases hopen : FileStore.openFile d.store path .reading with ⟨e | f, t⟩
  · rw [on_cat_unopened hp hopen]
    refine (Run.within_done _ _).mpr ⟨[], .unopened e, [], .unopened hopen, .nil, ?_⟩
    rw [Outbox.took_nil]
    rfl
  · rw [hopen] at ht
    have hahead := S.openFile_ahead hd.flows hf hopen
    have hleft : contents.length ≤ FileStore.bytesLeft t f :=
      S.length_le_bytesLeft (ht.tree ▸ hahead)
    have hsend := sendPieces_relays (n := FileStore.bytesLeft t f + 1) (s := s)
      (d := { d with store := t, held := true }) hR (by omega) ho ht hahead
    rw [on_cat hp hopen]
    refine hsend.next fun x w hx => ?_
    obtain ⟨sent, result, rs, hrelays, hpieces, hresult, hs⟩ := hx
    obtain ⟨closed, s', hclose⟩ : ∃ closed s', FileStore.closeFile w.store x.1.2 = (closed, s') :=
      ⟨_, _, rfl⟩
    rw [hclose]
    refine ⟨sent, _, rs, .opened hopen hrelays hclose, hpieces, ?_⟩
    rw [hresult, hs, Transferred.outcome_ofOpened]

end Handler

/-- The host gets what goes out of the file, and then an empty reply with what came of it. -/
theorem Request.cat_transfers {transport : Transport ε} {e : Endpoint chunk φ} {p : Packet}
    {bytes : Bytes} (hR : S.Lasts T R) (hdecode : Packet.decode bytes = .ok p)
    (hc : p.command = .cat) (hp : e.pathOf p.payload = .ok path) (hf : S.Holds T path contents)
    (ho : ∀ n, transport.refuse n = none) (hd : S.Serves T d.store) :
    ((Request.frame transport bytes).routine e d).Within R
      (fun x w => ∃ sent result rs v, d.Transfers R transport path sent result v ∧
        transport.Delivers R v w ∧ Pieces sent rs ∧
        x = (.served (.ok result.status) (rs ++ [.ofStatus result.status]), e))
      (transport.waits (contents.length + 1)) := by
  have hfree : (Outbox.empty transport).Free := ⟨rfl, ho⟩
  have hcat := Handler.cat_transfers (s := ⟨e, .empty transport⟩) hR hp hf hfree hd
  have hexecute : (Handler.execute p : Handler size chunk σ φ ε Reply) = Handler.cat p.payload := by
    unfold Handler.execute
    rw [hc]
  rw [Request.routine_frame, Conduct.on_serve _ _ hdecode, hexecute, Run.bind_bind]
  refine (hcat.bind fun x v hx => ?_).mono (transport.waits_le (Nat.le_refl _))
  obtain ⟨sent, result, rs, htransfers, hpieces, rfl⟩ := hx
  have hconclude := Conduct.conclude_delivers (R := R)
    (s := ⟨e, (Outbox.empty transport).took rs⟩) (d := v) (hfree.took rs) result.outcome
  refine hconclude.next fun x w hx => ?_
  obtain ⟨rfl, hw⟩ := hx
  refine (Run.within_done _ _).mpr ⟨sent, result, rs, v, htransfers, hw, hpieces, ?_⟩
  rw [Transferred.finalReply_outcome, Outbox.took_took]
  rfl

end

/-! ## Disturbed volumes -/

namespace Disturbance

variable [Disturbance ι]

/-- Reads may be cut, but never to nothing. -/
def Flowing (i : ι) : Prop :=
  ∀ calls : List StoreCall, readLimit (calls.foldl (fun j c => (meet j c).2) i) ≠ some 0

theorem Flowing.next {i : ι} (h : Flowing i) (c : StoreCall) : Flowing (meet i c).2 :=
  fun calls => h (c :: calls)

theorem Flowing.limited_pos {i : ι} (h : Flowing i) {n : Nat} (hn : 0 < n) :
    0 < Disturbed.limited (readLimit i) n := by
  have hlimit : readLimit i ≠ some 0 := h []
  unfold Disturbed.limited
  cases hl : readLimit i with
  | none => exact hn
  | some l =>
    have hpos : l ≠ 0 := fun h0 => hlimit (h0 ▸ hl)
    exact Nat.lt_min.mpr ⟨Nat.pos_of_ne_zero hpos, hn⟩

theorem Calm.flowing {i : ι} (h : Calm i) : Flowing i := by
  intro calls hcut
  rw [(h calls).2] at hcut
  cases hcut

theorem flowing_mishap {m : Mishap} (h : m.readLimit ≠ some 0) : Flowing m := by
  intro calls
  induction calls generalizing m with
  | nil => exact h
  | cons c calls ih =>
    have hkept : (Mishap.meet m c).2.readLimit = m.readLimit := by
      unfold Mishap.meet
      split
      · rfl
      · split
        · rfl
        · split <;> rfl
    exact ih (hkept ▸ h)

end Disturbance

namespace Disturbed

variable [Disturbance ι] {T : Tree} {d : Disturbed ι Volume} {contents : Bytes} {f : FileHandle}

/-- The tree is `T`, and no read is cut to nothing. -/
structure Feeds (T : Tree) (d : Disturbed ι Volume) : Prop where
  tree : d.store.tree = T
  flowing : Disturbance.Flowing d.disturbance

theorem Feeds.call {α : Type} (h : d.Feeds T) (c : StoreCall)
    {answer : Volume → Except StorageError α × Volume}
    (ht : (answer d.store).2.tree = d.store.tree) : (d.call c answer).2.Feeds T := by
  have hnext := h.flowing.next c
  unfold Disturbed.call
  rcases hmeet : Disturbance.meet d.disturbance c with ⟨_ | e, i⟩
  · rw [hmeet] at hnext
    exact ⟨ht.trans h.tree, hnext⟩
  · rw [hmeet] at hnext
    exact ⟨h.tree, hnext⟩

theorem Feeds.callOn {α η : Type} (h : d.Feeds T) (c : StoreCall) (f : η)
    {answer : ι → Volume → η → Except StorageError α × η × Volume}
    (ht : ∀ i, (answer i d.store f).2.2.tree = d.store.tree) :
    (d.callOn c f answer).2.2.Feeds T := by
  have hnext := h.flowing.next c
  unfold Disturbed.callOn
  rcases hmeet : Disturbance.meet d.disturbance c with ⟨_ | e, i⟩
  · rw [hmeet] at hnext
    exact ⟨(ht i).trans h.tree, hnext⟩
  · rw [hmeet] at hnext
    exact ⟨h.tree, hnext⟩

/-- A read fails, or it gives some of the bytes that follow, if there are any. -/
theorem Feeds.read (h : d.Feeds T) (hf : T.get? f.key = some (.file contents)) {n : Nat}
    (hn : 0 < n) :
    ∃ t, t.Feeds T ∧ ((∃ e, FileStore.read d f n = (.error e, f, t)) ∨
      ∃ m, 0 < m ∧ m ≤ n ∧ FileStore.read d f n = (.ok (Volume.slice contents f.pos m),
        { f with pos := (f.pos + (Volume.slice contents f.pos m).length) % Bytes.wordLimit },
        t)) := by
  let answer (i : ι) (v : Volume) (f : FileHandle) :
      Except StorageError Bytes × FileHandle × Volume :=
    FileStore.read v f (limited (Disturbance.readLimit i) n)
  have hfeeds : (d.callOn .read f answer).2.2.Feeds T :=
    h.callOn .read f fun i => (d.store.read_same f _).tree
  have hnext := h.flowing.next .read
  refine ⟨_, hfeeds, ?_⟩
  show (∃ e, d.callOn .read f answer = (.error e, f, (d.callOn .read f answer).2.2)) ∨
    ∃ m, 0 < m ∧ m ≤ n ∧ d.callOn .read f answer =
      (_, _, (d.callOn .read f answer).2.2)
  unfold Disturbed.callOn
  rcases hmeet : Disturbance.meet d.disturbance .read with ⟨_ | e, i⟩
  · rw [hmeet] at hnext
    obtain ⟨e, he, hsame⟩ | ⟨contents', hc, hbytes, hmoved⟩ :=
      d.store.read_cases f (limited (Disturbance.readLimit i) n)
    · exact .inl ⟨e, Prod.ext he (Prod.ext hsame rfl)⟩
    · rw [h.tree, hf] at hc
      obtain rfl := Node.file.inj (Option.some.inj hc)
      exact .inr ⟨_, hnext.limited_pos hn, limited_le _ _, Prod.ext hbytes (Prod.ext hmoved rfl)⟩
  · exact .inl ⟨e, rfl⟩

/-- Opening a file fails, or it is opened at its first byte. -/
theorem Feeds.openFile {path : Bytes} {k : Key} (h : d.Feeds T) (hk : Volume.key path = .ok k)
    (hf : T.get? k = some (.file contents)) :
    ∃ t, t.Feeds T ∧ ((∃ e, FileStore.openFile d path .reading = (.error e, t)) ∨
      ∃ f, FileStore.openFile d path .reading = (.ok f, t) ∧ f.key = k ∧ f.pos = 0) := by
  have hnode : d.store.tree.get? k = some (.file contents) := by rw [h.tree, hf]
  have hopen : (∃ e, d.store.openFile path .reading = (.error e, d.store)) ∨
      d.store.openFile path .reading = (.ok (d.store.handle k .reading), d.store) := by
    obtain he | ⟨k', hk', -, hopened⟩ := d.store.openFile_cases path .reading
    · exact .inl he
    · obtain rfl := Except.ok.inj (hk.symm.trans hk')
      obtain ⟨_, -, -, ho⟩ | ⟨_, -, ht, -⟩ | ⟨hnone, -, -⟩ := hopened
      · exact .inr ho
      · cases ht
      · rw [hnode] at hnone
        cases hnone
  let answer (v : Volume) : Except StorageError FileHandle × Volume :=
    FileStore.openFile v path .reading
  have htree : (answer d.store).2.tree = d.store.tree := by
    obtain ⟨e, ho⟩ | ho := hopen <;> exact congrArg (·.2.tree) ho
  refine ⟨_, h.call .openFile htree, ?_⟩
  show (∃ e, d.call .openFile answer = (.error e, (d.call .openFile answer).2)) ∨
    ∃ f, d.call .openFile answer = (.ok f, (d.call .openFile answer).2) ∧ _
  unfold Disturbed.call
  rcases Disturbance.meet d.disturbance .openFile with ⟨_ | e, i⟩
  · obtain ⟨e, ho⟩ | ho := hopen
    · exact .inl ⟨e, congrArg (fun x => (x.1, _)) ho⟩
    · exact .inr ⟨_, congrArg (fun x => (x.1, _)) ho, rfl, rfl⟩
  · exact .inl ⟨e, rfl⟩

/-- `rest` is what is left of a file behind the position of the handle, and the file ends before the
last position. -/
def Ahead (T : Tree) (f : FileHandle) (rest : Bytes) : Prop :=
  ∃ contents, T.get? f.key = some (.file contents) ∧ contents.length < Bytes.wordLimit ∧
    f.pos ≤ contents.length ∧ contents.drop f.pos = rest

theorem Feeds.openFile_keeps {path : Bytes} {k : Key} (h : d.Feeds T)
    (hk : Volume.key path = .ok k) (hf : T.get? k = some (.file contents)) :
    (FileStore.openFile d path .reading).2.Feeds T := by
  obtain ⟨t, ht, ⟨e, he⟩ | ⟨f, he, -⟩⟩ := h.openFile hk hf <;> rwa [he]

theorem Feeds.openFile_ahead {path : Bytes} {k : Key} {t : Disturbed ι Volume} (h : d.Feeds T)
    (hk : Volume.key path = .ok k) (hf : T.get? k = some (.file contents))
    (hshort : contents.length < Bytes.wordLimit)
    (ho : FileStore.openFile d path .reading = (.ok f, t)) : Ahead T f contents := by
  obtain ⟨t', -, ⟨e, he⟩ | ⟨f', he, rfl, hpos⟩⟩ := h.openFile hk hf
  · cases ho.symm.trans he
  · cases ho.symm.trans he
    exact ⟨contents, hf, hshort, hpos ▸ Nat.zero_le _, by rw [hpos, List.drop_zero]⟩

/-- As the file ends before the last position the handle moves on by what it has read. -/
theorem Feeds.read_ahead {t : Disturbed ι Volume} {g : FileHandle} {n : Nat} {rest bytes : Bytes}
    (h : d.Feeds T) (hahead : Ahead T f rest) (hn : 0 < n)
    (hread : FileStore.read d f n = (.ok bytes, g, t)) :
    ∃ more, rest = bytes ++ more ∧ bytes.length ≤ n ∧ (bytes = [] → rest = []) ∧
      Ahead T g more := by
  obtain ⟨contents, hf, hshort, hpos, rfl⟩ := hahead
  obtain ⟨t', -, ⟨e, he⟩ | ⟨m, hm, hle, hgiven⟩⟩ := h.read hf hn
  · cases hread.symm.trans he
  · cases hread.symm.trans hgiven
    have hlength : (Volume.slice contents f.pos m).length = min m (contents.length - f.pos) := by
      rw [Volume.slice, List.length_take, List.length_drop]
    have hend : f.pos + (Volume.slice contents f.pos m).length ≤ contents.length := by omega
    have hmoved : (f.pos + (Volume.slice contents f.pos m).length) % Bytes.wordLimit =
        f.pos + (Volume.slice contents f.pos m).length := Nat.mod_eq_of_lt (by omega)
    rw [hmoved]
    exact ⟨_, Volume.drop_eq_slice_append contents f.pos m, by omega,
      fun hnil => Volume.drop_of_slice_eq_nil hnil hm, contents, hf, hshort, hend, rfl⟩

theorem Ahead.length_le {rest : Bytes} (h : Ahead d.store.tree f rest) :
    rest.length ≤ FileStore.bytesLeft d f := by
  obtain ⟨contents, hf, -, -, rfl⟩ := h
  show _ ≤ d.store.bytesLeft f
  simp [Volume.bytesLeft, hf]

variable (ι) in
/-- A disturbed volume gives out the files that end before the last position. -/
def supply : FileStore.Supply (Disturbed ι Volume) Tree where
  tree d := d.store.tree
  Flows d := Disturbance.Flowing d.disturbance
  Holds T path contents := ∃ k, Volume.key path = .ok k ∧ T.get? k = some (.file contents) ∧
    contents.length < Bytes.wordLimit
  Ahead := Ahead
  openFile_keeps {d _ _} hi hc := by
    obtain ⟨k, hk, hf, -⟩ := hc
    have hd : d.Feeds d.store.tree := ⟨rfl, hi⟩
    exact ⟨(hd.openFile_keeps hk hf).tree, (hd.openFile_keeps hk hf).flowing⟩
  closeFile_keeps {d} f hi := by
    have ht : (FileStore.closeFile d f).2.Feeds d.store.tree :=
      Feeds.call ⟨rfl, hi⟩ .closeFile (d.store.closeFile_same f).tree
    exact ⟨ht.tree, ht.flowing⟩
  read_keeps {d} f n hi := by
    have ht : (FileStore.read d f n).2.2.Feeds d.store.tree :=
      Feeds.callOn ⟨rfl, hi⟩ .read f fun _ => (d.store.read_same f _).tree
    exact ⟨ht.tree, ht.flowing⟩
  seek_keeps {d} f whence hi := by
    have ht : (FileStore.seek d f whence).2.2.Feeds d.store.tree :=
      Feeds.callOn ⟨rfl, hi⟩ .seek f fun _ => (d.store.seek_same f whence).tree
    exact ⟨ht.tree, ht.flowing⟩
  openFile_ahead {d _ _ _ _} hi hc ho := by
    obtain ⟨k, hk, hf, hshort⟩ := hc
    have hd : d.Feeds d.store.tree := ⟨rfl, hi⟩
    exact hd.openFile_ahead hk hf hshort ho
  read_ahead {d _ _ _ _ _ _} hi hahead hn hread := by
    have hd : d.Feeds d.store.tree := ⟨rfl, hi⟩
    exact hd.read_ahead hahead hn hread
  length_le_bytesLeft h := h.length_le

end Disturbed

/-- A file that goes past the last position is not given out in order: no read of it comes to an
end, for the position begins again. -/
theorem Volume.read_past_last {v w : Volume} {f g : FileHandle} {n : Nat} {bytes contents : Bytes}
    (hf : v.tree.get? f.key = some (.file contents)) (hlong : Bytes.wordLimit ≤ contents.length)
    (hpos : f.pos < Bytes.wordLimit) (hn : 0 < n) (h : v.read f n = (.ok bytes, g, w)) :
    bytes ≠ [] ∧ w.tree = v.tree ∧ g.key = f.key ∧ g.pos < Bytes.wordLimit := by
  obtain ⟨contents', hc, rfl, rfl, htree⟩ := read_eq_ok h
  obtain rfl := Node.file.inj (Option.some.inj (hf.symm.trans hc))
  refine ⟨fun hnil => ?_, htree, rfl, Nat.mod_lt _ (by decide)⟩
  have hend := congrArg List.length (drop_of_slice_eq_nil hnil hn)
  rw [List.length_drop, List.length_nil] at hend
  omega

end PanelLink
