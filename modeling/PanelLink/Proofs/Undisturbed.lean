import PanelLink.Proofs.Contents
import PanelLink.Proofs.Custody

/-!
A store that nothing disturbs: a file that is there can be opened, read from its first byte to its
last and closed, whatever the loader reads meanwhile.
-/
namespace PanelLink

/-! ## The volume -/

namespace Volume

variable {v : Volume} {k : Key} {contents path : Bytes} {f : FileHandle}

structure Offers (v : Volume) (k : Key) (contents : Bytes) : Prop where
  mounted : v.mounted = true
  node : v.tree.get? k = some (.file contents)

theorem Same.offers {v' : Volume} (h : v.Same v') (ho : v.Offers k contents) :
    v'.Offers k contents where
  mounted := h.mounted.trans ho.mounted
  node := by rw [h.tree, ho.node]

structure Reads (v : Volume) (f : FileHandle) : Prop where
  generation : f.generation = v.generation
  flags : f.flags.read = true
  readFault : v.readFault ≠ some f.key

theorem openFile_of_offers (h : v.Offers k contents) (hk : key path = .ok k) :
    v.openFile path .reading = (.ok (v.handle k .reading), v) := by
  simp [openFile, mountFailure, h.mounted, hk, h.node, OpenFlags.reading]

private theorem handleFailure_of_offers (h : v.Offers k contents)
    (hf : f.generation = v.generation) :
    v.handleFailure f.generation = (none, v) := by
  simp [handleFailure, h.mounted, hf]

theorem read_of_offers (h : v.Offers f.key contents) (hf : v.Reads f) (n : Nat) :
    (v.read f n).1 = .ok (slice contents f.pos n) ∧
      (v.read f n).2.1 =
        { f with pos := (f.pos + (slice contents f.pos n).length) % Bytes.wordLimit } := by
  unfold read
  rw [handleFailure_of_offers h hf.generation]
  simp [hf.flags, hf.readFault, h.node]

theorem closeFile_of_offers (h : v.Offers k contents) (hf : f.generation = v.generation) :
    v.closeFile f = (.ok (), v) := by
  unfold closeFile
  rw [handleFailure_of_offers h hf]

/-- Only what is in use can be closed. -/
theorem mounted_of_closeFile (h : (v.closeFile f).1 = .ok ()) :
    (v.closeFile f).2.mounted = true := by
  unfold closeFile handleFailure at h ⊢
  by_cases hm : v.mounted = true
  · by_cases hg : f.generation = v.generation
    · simp [hm, hg]
    · simp [hm, hg] at h
  · simp [hm] at h

end Volume

/-! ## The disturbance -/

namespace Disturbance

variable {ι : Type} [Disturbance ι]

/-- No call meets a failure and no read is cut. -/
def Calm (i : ι) : Prop :=
  ∀ calls : List StoreCall, let j := calls.foldl (fun j c => (meet j c).2) i
    (∀ c, (meet j c).1 = none) ∧ readLimit j = none

theorem Calm.unmet {i : ι} (h : Calm i) (c : StoreCall) : (meet i c).1 = none :=
  (h []).1 c

theorem Calm.unlimited {i : ι} (h : Calm i) : readLimit i = none :=
  (h []).2

theorem Calm.next {i : ι} (h : Calm i) (c : StoreCall) : Calm (meet i c).2 :=
  fun calls => h (c :: calls)

theorem meet_mishap {m : Mishap} (hf : m.fault = none) (c : StoreCall) : meet m c = (none, m) := by
  show Mishap.meet m c = (none, m)
  simp only [Mishap.meet, hf]

/-- Without an armed fault nothing changes. -/
theorem foldl_mishap {m : Mishap} (hf : m.fault = none) (calls : List StoreCall) :
    calls.foldl (fun j c => (meet j c).2) m = m := by
  induction calls with
  | nil => rfl
  | cons c calls ih => rw [List.foldl_cons, meet_mishap hf, ih]

theorem calm_mishap {m : Mishap} (hf : m.fault = none) (hl : m.readLimit = none) : Calm m := by
  intro calls
  rw [foldl_mishap hf]
  exact ⟨fun c => by rw [meet_mishap hf], hl⟩

/-- No call meets a failure, though reads may be cut. -/
def Unfailing (i : ι) : Prop :=
  ∀ (calls : List StoreCall) (c : StoreCall), (meet (calls.foldl (fun j c => (meet j c).2) i) c).1 =
    none

theorem Unfailing.unmet {i : ι} (h : Unfailing i) (c : StoreCall) : (meet i c).1 = none :=
  h [] c

theorem Unfailing.next {i : ι} (h : Unfailing i) (c : StoreCall) : Unfailing (meet i c).2 :=
  fun calls => h (c :: calls)

theorem unfailing_mishap {m : Mishap} (hf : m.fault = none) : Unfailing m := by
  intro calls c
  rw [foldl_mishap hf, meet_mishap hf]

end Disturbance

/-! ## The store -/

variable {ι : Type} [Disturbance ι]

namespace Disturbed

variable {d : Disturbed ι Volume} {k : Key} {contents path : Bytes} {g : UInt32}

/-- The file can be read without a failure, and handles of this generation are good. -/
structure Readable (k : Key) (contents : Bytes) (g : UInt32) (d : Disturbed ι Volume) : Prop where
  calm : Disturbance.Calm d.disturbance
  offers : d.store.Offers k contents
  generation : d.store.generation = g
  readFault : d.store.readFault ≠ some k

theorem Readable.same {d' : Disturbed ι Volume} (h : d.Readable k contents g) (c : StoreCall)
    (hi : d'.disturbance = (Disturbance.meet d.disturbance c).2)
    (hv : d.store.Same d'.store) : d'.Readable k contents g := by
  constructor
  · rw [hi]
    exact h.calm.next c
  · exact hv.offers h.offers
  · rw [hv.generation, h.generation]
  · rw [hv.readFault]
    exact h.readFault

theorem callOn_unmet {α η : Type} {c : StoreCall} (hc : (Disturbance.meet d.disturbance c).1 = none)
    (f : η) (answer : ι → Volume → η → Except StorageError α × η × Volume) :
    d.callOn c f answer =
      ((answer (Disturbance.meet d.disturbance c).2 d.store f).1,
        (answer (Disturbance.meet d.disturbance c).2 d.store f).2.1,
        ⟨(Disturbance.meet d.disturbance c).2,
          (answer (Disturbance.meet d.disturbance c).2 d.store f).2.2⟩) := by
  unfold callOn
  rcases hm : Disturbance.meet d.disturbance c with ⟨_ | e, i⟩
  · rfl
  · simp [hm] at hc

theorem call_unmet {α : Type} {c : StoreCall} (hc : (Disturbance.meet d.disturbance c).1 = none)
    (answer : Volume → Except StorageError α × Volume) :
    d.call c answer =
      ((answer d.store).1, ⟨(Disturbance.meet d.disturbance c).2, (answer d.store).2⟩) := by
  unfold call
  rcases hm : Disturbance.meet d.disturbance c with ⟨_ | e, i⟩
  · rfl
  · simp [hm] at hc

/-- A call through a handle changes the volume as little as its answer does. -/
theorem callOn_same {α η : Type} (d : Disturbed ι Volume) (c : StoreCall) (f : η)
    (answer : ι → Volume → η → Except StorageError α × η × Volume)
    (h : ∀ i, d.store.Same (answer i d.store f).2.2) :
    (d.callOn c f answer).2.2.disturbance = (Disturbance.meet d.disturbance c).2 ∧
      d.store.Same (d.callOn c f answer).2.2.store := by
  unfold callOn
  rcases Disturbance.meet d.disturbance c with ⟨_ | e, i⟩
  · exact ⟨rfl, h i⟩
  · exact ⟨rfl, .refl d.store⟩

theorem read_same (d : Disturbed ι Volume) (f : FileHandle) (n : Nat) :
    (FileStore.read d f n).2.2.disturbance = (Disturbance.meet d.disturbance .read).2 ∧
      d.store.Same (FileStore.read d f n).2.2.store :=
  d.callOn_same .read f (fun i v f => v.read f (limited (Disturbance.readLimit i) n))
    fun _ => d.store.read_same f _

theorem seek_same (d : Disturbed ι Volume) (f : FileHandle) (whence : SeekFrom) :
    (FileStore.seek d f whence).2.2.disturbance = (Disturbance.meet d.disturbance .seek).2 ∧
      d.store.Same (FileStore.seek d f whence).2.2.store :=
  d.callOn_same .seek f (fun _ v f => v.seek f whence) fun _ => d.store.seek_same f whence

theorem openFile_readable (h : d.Readable k contents g) (hk : Volume.key path = .ok k) :
    (FileStore.openFile d path .reading).1 = .ok ⟨k, 0, .reading, g⟩ ∧
      (FileStore.openFile d path .reading).2.Readable k contents g := by
  have hcall : FileStore.openFile d path .reading = _ :=
    call_unmet (h.calm.unmet .openFile) fun v => v.openFile path .reading
  rw [Volume.openFile_of_offers h.offers hk] at hcall
  rw [hcall]
  refine ⟨?_, h.same .openFile rfl (.refl _)⟩
  rw [← h.generation]
  rfl

theorem read_readable (h : d.Readable k contents g) (pos n : Nat) :
    (FileStore.read d ⟨k, pos, .reading, g⟩ n).1 = .ok (Volume.slice contents pos n) ∧
      (FileStore.read d ⟨k, pos, .reading, g⟩ n).2.1 =
        ⟨k, (pos + (Volume.slice contents pos n).length) % Bytes.wordLimit, .reading, g⟩ ∧
      (FileStore.read d ⟨k, pos, .reading, g⟩ n).2.2.Readable k contents g := by
  obtain ⟨hi, hv⟩ := d.read_same ⟨k, pos, .reading, g⟩ n
  have hcall : FileStore.read d ⟨k, pos, .reading, g⟩ n = _ :=
    callOn_unmet (h.calm.unmet .read) ⟨k, pos, .reading, g⟩
      fun i v f => v.read f (limited (Disturbance.readLimit i) n)
  have hlimit : limited (Disturbance.readLimit (Disturbance.meet d.disturbance .read).2) n = n := by
    rw [(h.calm.next .read).unlimited]
    rfl
  have hgood : d.store.Reads ⟨k, pos, .reading, g⟩ := ⟨h.generation.symm, rfl, h.readFault⟩
  obtain ⟨hbytes, hmoved⟩ := Volume.read_of_offers h.offers hgood n
  refine ⟨?_, ?_, h.same .read hi hv⟩
  · rw [hcall, hlimit]
    exact hbytes
  · rw [hcall, hlimit]
    exact hmoved

theorem closeFile_readable {f : FileHandle} (h : d.Readable k contents g) (hf : f.generation = g) :
    (FileStore.closeFile d f).1 = .ok () ∧ (FileStore.closeFile d f).2.Readable k contents g := by
  have hcall : FileStore.closeFile d f = _ :=
    call_unmet (h.calm.unmet .closeFile) fun v => v.closeFile f
  rw [Volume.closeFile_of_offers h.offers (hf.trans h.generation.symm)] at hcall
  rw [hcall]
  exact ⟨rfl, h.same .closeFile rfl (.refl _)⟩

theorem mounted_of_closeFile {f : FileHandle} (h : (FileStore.closeFile d f).1 = .ok ()) :
    (FileStore.closeFile d f).2.store.mounted = true := by
  have hclose : (d.call .closeFile fun v => v.closeFile f).1 = .ok () := h
  show (d.call .closeFile fun v => v.closeFile f).2.store.mounted = true
  unfold call at hclose ⊢
  rcases hm : Disturbance.meet d.disturbance .closeFile with ⟨_ | e, i⟩
  · rw [hm] at hclose
    exact Volume.mounted_of_closeFile hclose
  · rw [hm] at hclose
    cases hclose

end Disturbed

namespace Recorded

variable {k : Key} {contents path : Bytes} {g : UInt32} {r : Recorded (Disturbed ι Volume)}

def shelf (P : Disturbed ι Volume → Prop) :
    Custody (Recorded (Disturbed ι Volume)) (Ticket FileHandle) (Ticket DirHandle) where
  store r := P r.store
  file _ _ := True
  dir _ _ := True

omit [Disturbance ι] in
theorem shelf_carries {P : Disturbed ι Volume → Prop} {r' : Recorded (Disturbed ι Volume)}
    (h : P r'.store) : (shelf P).Carries r r' :=
  ⟨h, fun _ hf => hf, fun _ hd => hd⟩

omit [Disturbance ι] in
theorem under_shelf {size : Nat} {P : Disturbed ι Volume → Prop}
    {d : Device size (Recorded (Disturbed ι Volume)) (Ticket FileHandle)} (h : P d.store.store) :
    d.Under (shelf P) :=
  ⟨h, fun _ _ => trivial⟩

theorem shelf_reading {P : Disturbed ι Volume → Prop}
    (hP : ∀ d d' c, P d → d'.disturbance = (Disturbance.meet d.disturbance c).2 →
      d.store.Same d'.store → P d') :
    (shelf P).Reading where
  read {r f} n hr _ := by
    obtain ⟨hi, hv⟩ := r.store.read_same f.handle n
    exact ⟨shelf_carries (hP _ _ _ hr hi hv), trivial⟩
  seek {r f} whence hr _ := by
    obtain ⟨hi, hv⟩ := r.store.seek_same f.handle whence
    exact ⟨shelf_carries (hP _ _ _ hr hi hv), trivial⟩

abbrev offering (k : Key) (contents : Bytes) :
    Custody (Recorded (Disturbed ι Volume)) (Ticket FileHandle) (Ticket DirHandle) :=
  shelf (·.store.Offers k contents)

abbrev readable (k : Key) (contents : Bytes) (g : UInt32) :
    Custody (Recorded (Disturbed ι Volume)) (Ticket FileHandle) (Ticket DirHandle) :=
  shelf (Disturbed.Readable k contents g)

theorem offering_reading :
    (offering k contents : Custody (Recorded (Disturbed ι Volume)) _ _).Reading :=
  shelf_reading fun _ _ _ h _ hv => hv.offers h

theorem readable_reading :
    (readable k contents g : Custody (Recorded (Disturbed ι Volume)) _ _).Reading :=
  shelf_reading fun _ _ c h hi hv => h.same c hi hv

theorem openFile_readable (h : r.store.Readable k contents g) (hk : Volume.key path = .ok k) :
    ∃ t, FileStore.openFile r path .reading = (.ok ⟨r.issued, ⟨k, 0, .reading, g⟩⟩, t) ∧
      t.store.Readable k contents g := by
  obtain ⟨hopen, hstore⟩ := Disturbed.openFile_readable h hk
  rcases ho : FileStore.openFile r.store path .reading with ⟨x | f, s⟩
  · simp [ho] at hopen
  rw [ho] at hopen hstore
  obtain rfl := Except.ok.inj hopen
  refine ⟨{ r.note .openFile (some r.issued) s with issued := r.issued + 1 }, ?_, hstore⟩
  show r.issue .openFile (FileStore.openFile · path .reading) = _
  simp only [issue, ho]

theorem read_readable (h : r.store.Readable k contents g) (number pos n : Nat) :
    ∃ t, FileStore.read r ⟨number, ⟨k, pos, .reading, g⟩⟩ n =
        (.ok (Volume.slice contents pos n),
          ⟨number, ⟨k, (pos + (Volume.slice contents pos n).length) % Bytes.wordLimit, .reading,
            g⟩⟩,
          t) ∧
      t.store.Readable k contents g := by
  obtain ⟨hbytes, hmoved, hstore⟩ := Disturbed.read_readable h pos n
  let f : FileHandle := ⟨k, pos, .reading, g⟩
  refine ⟨r.note .read (some number) (FileStore.read r.store f n).2.2, ?_, hstore⟩
  rw [← hbytes, ← hmoved]
  rfl

end Recorded

end PanelLink
