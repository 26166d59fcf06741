import PanelLink.Proofs.Aloof
import PanelLink.Proofs.Animation

/-!
Invariants of a store and of the handles on it. If the calls of the tasks keep an invariant then so
do the tasks, and the same for the requests.
-/
namespace PanelLink

/-- An invariant of a store, and one of each kind of handle on it. -/
structure Custody (σ φ δ : Type) where
  store : σ → Prop
  file : σ → φ → Prop
  dir : σ → δ → Prop

variable {size chunk : Nat} {σ φ δ ε : Type}

namespace Custody

variable (K : Custody σ φ δ)

/-- The invariant holds of `s'`, and every handle that was good on `s` is good on `s'`. -/
structure Carries (s s' : σ) : Prop where
  store : K.store s'
  file (f : φ) : K.file s f → K.file s' f
  dir (h : δ) : K.dir s h → K.dir s' h

variable {K}

theorem Carries.refl {s : σ} (h : K.store s) : K.Carries s s :=
  ⟨h, fun _ hf => hf, fun _ hd => hd⟩

theorem Carries.trans {s s' s'' : σ} (h : K.Carries s s') (h' : K.Carries s' s'') :
    K.Carries s s'' where
  store := h'.store
  file f hf := h'.file f (h.file f hf)
  dir d hd := h'.dir d (h.dir d hd)

def Holds (K : Custody σ φ δ) (s : σ) : CommandHandle φ δ → Prop
  | .none => True
  | .file f => K.file s f
  | .dir h => K.dir s h

theorem Carries.holds {s s' : σ} (h : K.Carries s s') {l : CommandHandle φ δ} (hl : K.Holds s l) :
    K.Holds s' l := by
  cases l with
  | none => trivial
  | file f => exact h.file f hl
  | dir d => exact h.dir d hl

variable [FileStore σ φ δ] (K)

/-- The calls of the loader keep the custody. -/
structure Reading : Prop where
  read {s f} (n : Nat) : K.store s → K.file s f →
    K.Carries s (FileStore.read s f n).2.2 ∧
      K.file (FileStore.read s f n).2.2 (FileStore.read s f n).2.1
  seek {s f} (whence : SeekFrom) : K.store s → K.file s f →
    K.Carries s (FileStore.seek s f whence).2.2 ∧
      K.file (FileStore.seek s f whence).2.2 (FileStore.seek s f whence).2.1

/-- The calls that read keep the custody, and those that make an empty file or a directory. -/
structure Sparing : Prop extends Reading K where
  openFile {s} {flags : OpenFlags} (path : Bytes) : flags = .reading ∨ flags = .creating →
    K.store s → K.Carries s (FileStore.openFile s path flags).2 ∧
      ∀ f, (FileStore.openFile s path flags).1 = .ok f →
        K.file (FileStore.openFile s path flags).2 f
  closeFile {s f} : K.store s → K.file s f → K.Carries s (FileStore.closeFile s f).2
  stat {s} (path : Bytes) : K.store s → K.Carries s (FileStore.stat s path).2
  openDir {s} (path : Bytes) : K.store s → K.Carries s (FileStore.openDir s path).2 ∧
    ∀ h, (FileStore.openDir s path).1 = .ok h → K.dir (FileStore.openDir s path).2 h
  readDir {s h} : K.store s → K.dir s h →
    K.Carries s (FileStore.readDir s h).2.2 ∧
      K.dir (FileStore.readDir s h).2.2 (FileStore.readDir s h).2.1
  closeDir {s h} : K.store s → K.dir s h → K.Carries s (FileStore.closeDir s h).2
  mkdir {s} (path : Bytes) : K.store s → K.Carries s (FileStore.mkdir s path).2
  usedBlocks {s} : K.store s → K.Carries s (FileStore.usedBlocks s).2

/-- The calls that write to a file keep it too. -/
structure Adding : Prop extends Sparing K where
  openAppending {s} (path : Bytes) : K.store s →
    K.Carries s (FileStore.openFile s path .appending).2 ∧
      ∀ f, (FileStore.openFile s path .appending).1 = .ok f →
        K.file (FileStore.openFile s path .appending).2 f
  write {s f} (data : Bytes) : K.store s → K.file s f →
    K.Carries s (FileStore.write s f data).2.2 ∧
      K.file (FileStore.write s f data).2.2 (FileStore.write s f data).2.1

/-- Every call keeps the custody. -/
structure Entire : Prop extends Adding K where
  remove {s} (path : Bytes) : K.store s → K.Carries s (FileStore.remove s path).2
  format {s} : K.store s → K.Carries s (FileStore.format s).2
  mount {s} : K.store s → K.Carries s (FileStore.mount s).2

end Custody

namespace Device

variable (K : Custody σ φ δ)

/-- The custody holds of the store and of the file of the animation. -/
structure Under (d : Device size σ φ) : Prop where
  store : K.store d.store
  file (f : φ) : d.file = some f → K.file d.store f

/-- The custody is carried from `d` to `d'`, and the file of the animation on `d'` is in it. -/
structure Moves (d d' : Device size σ φ) : Prop where
  carries : K.Carries d.store d'.store
  file (f : φ) : d'.file = some f → K.file d'.store f

variable {K} {d d' d'' : Device size σ φ}

theorem Moves.under (h : Moves K d d') : d'.Under K :=
  ⟨h.carries.store, h.file⟩

theorem Moves.trans (h : Moves K d d') (h' : Moves K d' d'') : Moves K d d'' :=
  ⟨h.carries.trans h'.carries, h'.file⟩

theorem Moves.congr {w : Device size σ φ} (h : Moves K d d') (hs : w.store = d'.store)
    (hf : w.file = d'.file) : Moves K d w := by
  refine ⟨?_, ?_⟩
  · rw [hs]
    exact h.carries
  · rw [hs, hf]
    exact h.file

theorem Under.same {w : Device size σ φ} (h : d.Under K) (hs : w.store = d.store)
    (hf : w.file = d.file) : Moves K d w :=
  Moves.congr ⟨.refl h.store, h.file⟩ hs hf

theorem Under.step (h : d.Under K) {s : σ} (hs : K.Carries d.store s) :
    Moves K d { d with store := s } :=
  ⟨hs, fun f hf => hs.file f (h.file f hf)⟩

end Device

variable [FileStore σ φ δ] {K : Custody σ φ δ}

/-! ## The tasks -/

namespace Custody.Reading

open Device

variable {d : Device size σ φ}

theorem gather (hK : K.Reading) (tries want : Nat) {s : σ} {f : φ} (hs : K.store s)
    (hf : K.file s f) : K.Carries s (FileStore.gather tries want s f).2.2 ∧
      K.file (FileStore.gather tries want s f).2.2 (FileStore.gather tries want s f).2.1 := by
  induction tries generalizing want s f with
  | zero => exact ⟨.refl hs, hf⟩
  | succ tries ih =>
    cases want with
    | zero => exact ⟨.refl hs, hf⟩
    | succ want =>
      have hread := hK.read (want + 1) hs hf
      unfold FileStore.gather
      rcases hr : FileStore.read s f (want + 1) with ⟨e | bytes, f', s'⟩
      · rwa [hr] at hread
      rw [hr] at hread
      cases bytes with
      | nil => exact hread
      | cons b bs =>
        obtain ⟨hc, hf'⟩ := hread
        obtain ⟨hc', hf''⟩ := ih (want - bs.length) hc.store hf'
        exact ⟨hc.trans hc', hf''⟩

theorem loadFrame (hK : K.Reading) (h : d.Under K) (job : Job) :
    Moves K d (d.loadFrame job).2 := by
  unfold Device.loadFrame
  cases hf : d.file with
  | none => exact h.same rfl rfl
  | some f =>
    obtain ⟨hc, hf'⟩ := hK.seek (.start (frameOffset size job.frame)) h.store (h.file f hf)
    have hput {s : σ} {f' : φ} {w : Device size σ φ} (hs : K.Carries d.store s) (hf' : K.file s f')
        (hw : w.store = s) (hwf : w.file = some f') : Moves K d w := by
      subst hw
      refine ⟨hs, fun g hg => ?_⟩
      obtain rfl := Option.some.inj (hwf.symm.trans hg)
      exact hf'
    dsimp only
    rcases hseek : FileStore.seek d.store f (.start (frameOffset size job.frame)) with
        ⟨_ | n, f', s⟩
    · rw [hseek] at hc hf'
      exact hput hc hf' rfl rfl
    · rw [hseek] at hc hf'
      obtain ⟨hc', hf''⟩ := hK.gather size size hc.store hf'
      exact hput (hc.trans hc') hf'' rfl rfl

theorem perform (hK : K.Reading) (h : d.Under K) (job : Job) :
    Moves K d (d.perform job).2 :=
  (hK.loadFrame h job).congr rfl rfl

theorem serve (hK : K.Reading) (h : d.Under K) : Moves K d d.serve := by
  unfold Device.serve
  dsimp only
  split
  · exact h.same rfl rfl
  · exact h.same rfl rfl
  · split
    · exact h.same rfl rfl
    · rename_i job _ _
      have hw : Moves K d { d with playback := d.playback.duty.2 } := h.same rfl rfl
      exact (hw.trans (hK.perform hw.under job)).congr rfl rfl

theorem poll (hK : K.Reading) (h : d.Under K) : Moves K d d.pollLoader := by
  unfold pollLoader
  split
  · split
    · have hw : Moves K d { d with startSignal := false } := h.same rfl rfl
      exact hw.trans (hK.serve hw.under)
    · exact h.same rfl rfl
  · exact hK.serve h
  · rename_i job _
    split
    · exact h.same rfl rfl
    have hw := hK.perform h job
    split
    · rename_i hp
      rw [hp] at hw
      exact hw.trans (hK.serve hw.under)
    · rename_i hp
      rw [hp] at hw
      exact hw.congr rfl rfl

theorem tick (_ : K.Reading) (h : d.Under K) : Moves K d d.tick.2 := by
  obtain ⟨-, ht, -⟩ | ⟨-, ht, -⟩ | ⟨-, -, -, ht⟩ := d.tick_cases <;>
    rw [ht] <;>
    exact h.same rfl rfl

theorem aside (hK : K.Reading) (h : d.Under K) {a : Aside σ}
    (ha : ∀ change, a = .alter change → K.Carries d.store (change d.store)) :
    Moves K d (a.apply d).2 := by
  cases a with
  | poll => exact hK.poll h
  | tick => exact hK.tick h
  | timer =>
    show Moves K d d.pollTimer
    unfold pollTimer
    split
    · exact (hK.tick h).congr rfl rfl
    · exact h.same rfl rfl
  | alter change => exact h.step (ha change rfl)
  | setFault fault => exact h.same rfl rfl

theorem look (_ : K.Reading) (h : d.Under K) (p : Pause) : Moves K d (d.arrived p).2 := by
  obtain ⟨b, hw⟩ := d.arrived_rest p
  rw [hw]
  exact h.same rfl rfl

theorem resumes (hK : K.Reading) {ok : Aside σ → Prop}
    (hok : ∀ change s, ok (.alter change) → K.store s → K.Carries s (change s)) {p : Pause}
    {w : Device size σ φ} (h : d.Under K) (hw : Resumes ok p d w) : Moves K d w := by
  refine hw.induct (P := Moves K d) (fun w a ha hm => ?_) (fun w hm => ?_) (h.same rfl rfl)
  · refine hm.trans (hK.aside hm.under ?_)
    rintro change rfl
    exact hok change w.store ha hm.carries.store
  · exact hm.trans (hK.look hm.under p)

end Custody.Reading

/-! ## The requests that spare the store -/

namespace Custody.Sparing

open Device

variable {d : Device size σ φ}

theorem closeAnimation (hK : K.Sparing) (h : d.Under K) : Moves K d d.closeAnimation := by
  unfold Device.closeAnimation
  split
  · exact h.same rfl rfl
  · rename_i f hf
    refine ⟨hK.closeFile h.store (h.file f hf), ?_⟩
    intro g hg
    cases hg

theorem teardown (hK : K.Sparing) (h : d.Under K) (wasPlaying : Bool) :
    Moves K d (d.teardown wasPlaying) := by
  have hc := hK.closeAnimation h
  unfold Device.teardown
  dsimp only
  split
  · exact hc.congr rfl rfl
  · exact hc

theorem installFile (hK : K.Sparing) (h : d.Under K) {f : φ} (hf : K.file d.store f) (n : Nat) :
    Moves K d ((d.installFile f).beginSession n) := by
  unfold Device.installFile
  split
  · refine ⟨.refl h.store, fun g hg => ?_⟩
    obtain rfl := Option.some.inj hg
    exact hf
  · rename_i old hold
    have hc := hK.closeFile h.store (h.file old hold)
    refine ⟨hc, fun g hg => ?_⟩
    obtain rfl := Option.some.inj hg
    exact hc.file f hf

theorem launch (hK : K.Sparing) (h : d.Under K) (path : Bytes) :
    Moves K d (Device.launch path d).2 := by
  have hstat := h.step (hK.stat path h.store)
  unfold Device.launch callStore
  dsimp only
  rcases hs : FileStore.stat d.store path with ⟨_ | ⟨_ | _, length⟩, s⟩
  · rw [hs] at hstat
    exact hstat
  · rw [hs] at hstat
    dsimp only
    split
    · exact hstat
    obtain ⟨hopen, hfile⟩ := hK.openFile path (.inl (Eq.refl OpenFlags.reading)) hstat.carries.store
    rcases ho : FileStore.openFile s path .reading with ⟨_ | f, s'⟩
    · rw [ho] at hopen
      exact hstat.trans (hstat.under.step hopen)
    · rw [ho] at hopen hfile
      have hw := hstat.trans (hstat.under.step hopen)
      exact hw.trans (hK.installFile hw.under (hfile f rfl) _)
  · rw [hs] at hstat
    exact hstat

theorem showFile (hK : K.Sparing) (h : d.Under K) (path : Bytes) :
    Moves K d (Device.showFile path d).2 := by
  obtain ⟨hopen, hfile⟩ := hK.openFile path (.inl (Eq.refl OpenFlags.reading)) h.store
  unfold Device.showFile callStore
  dsimp only
  rcases ho : FileStore.openFile d.store path .reading with ⟨_ | f, s⟩
  · rw [ho] at hopen
    exact h.step hopen
  rw [ho] at hopen hfile
  obtain ⟨hgather, hf⟩ := hK.gather size size hopen.store (hfile f rfl)
  have hall : Moves K d { d with store := (FileStore.closeFile (FileStore.readFull s f size).2.2
      (FileStore.readFull s f size).2.1).2 } :=
    h.step ((hopen.trans hgather).trans (hK.closeFile hgather.store hf))
  dsimp only
  split
  · exact hall.congr rfl rfl
  · exact hall.congr rfl rfl
  · split
    · exact hall.congr rfl rfl
    · split
      · rename_i hp
        obtain ⟨frames, rfl⟩ := present_eq hp
        exact hall.congr rfl rfl
      · rename_i hp
        obtain ⟨frames, rfl⟩ := present_eq hp
        exact hall.congr rfl rfl

theorem writeRaw (_ : K.Sparing) (h : d.Under K) (cursor : Nat) (pixels : Bytes) :
    Moves K d (Device.writeRaw cursor pixels d).2 := by
  unfold Device.writeRaw
  dsimp only
  split
  · split
    · rename_i hp
      obtain ⟨frames, rfl⟩ := present_eq hp
      exact h.same rfl rfl
    · rename_i hp
      obtain ⟨frames, rfl⟩ := present_eq hp
      exact h.same rfl rfl
  · exact h.same rfl rfl

end Custody.Sparing

namespace Custody

def During (K : Custody σ φ δ) (E : Option (WriteSession chunk φ) → σ → Prop)
    (l : CommandHandle φ δ) :
    Assertion size chunk σ φ ε :=
  fun _ s d => E s.endpoint.upload d.store ∧ d.Under K ∧ K.Holds d.store l

variable {E : Option (WriteSession chunk φ) → σ → Prop} {ok : Aside σ → Prop}
  {T : Pause → Device size σ φ → Device size σ φ → Prop}

omit [FileStore σ φ δ] in
theorem During.step {l l' : CommandHandle φ δ} {v d : Device size σ φ} {s : Serving chunk φ ε}
    {t : σ}
    (h : K.During E l v s d) (hE : ∀ u {s s'}, K.Carries s s' → E u s → E u s')
    (hc : K.Carries d.store t) (hl : K.Holds t l') : K.During E l' v s { d with store := t } :=
  ⟨hE _ hc h.1, (h.2.1.step hc).under, hl⟩

theorem During.openFile {v d : Device size σ φ} {s : Serving chunk φ ε}
    (h : K.During E .none v s d) (hK : K.Sparing)
    (hE : ∀ u {s s'}, K.Carries s s' → E u s → E u s') {flags : OpenFlags}
    (hf : flags = .reading ∨ flags = .creating) (path : Bytes) :
    match FileStore.openFile d.store path flags with
    | (.ok f, t) => K.During E (.file f) v s { d with store := t }
    | (.error _, t) => K.During E .none v s { d with store := t } := by
  obtain ⟨hc, hfile⟩ := hK.openFile path hf h.2.1.store
  rcases ho : FileStore.openFile d.store path flags with ⟨_ | f, t⟩
  · rw [ho] at hc
    exact h.step hE hc trivial
  · rw [ho] at hc hfile
    exact h.step hE hc (hfile f rfl)

theorem Sparing.aloof (hK : K.Sparing)
    (hok : ∀ change s, ok (.alter change) → K.store s → K.Carries s (change s))
    (hE : ∀ u {s s'}, K.Carries s s' → E u s → E u s')
    (hT : ∀ p v u w, E u w.store → w.Under K → T p v w) :
    Aloof (Device.Resumes ok) T (K.During E : CommandHandle φ δ → Assertion size chunk σ φ ε) := by
  have hmove {l v v' s} {d w : Device size σ φ}
      (h : (K.During E l : Assertion size chunk σ φ ε) v s d) (hm : Device.Moves K d w) :
      (K.During E l : Assertion size chunk σ φ ε) v' s w :=
    ⟨hE _ hm.carries h.1, hm.under, hm.carries.holds h.2.2⟩
  exact {
    pause := fun h _ => ⟨hT _ _ _ _ h.1 h.2.1, fun w hw => hmove h (hK.resumes hok h.2.1 hw)⟩
    outbox := fun _ h => h
    held := fun b h => hmove h (h.2.1.same rfl rfl)
    cwd := fun _ h => h
    clock := fun _ h => h
    openFile := fun path h => h.openFile hK hE (.inl rfl) path
    create := fun path h => h.openFile hK hE (.inr rfl) path
    closeFile := fun h => h.step hE (hK.closeFile h.2.1.store h.2.2) trivial
    read := fun n h => by
      obtain ⟨hc, hf⟩ := hK.read n h.2.1.store h.2.2
      exact h.step hE hc hf
    openDir := fun {v s d} path h => by
      obtain ⟨hc, hdir⟩ := hK.openDir path h.2.1.store
      rcases ho : FileStore.openDir d.store path with ⟨_ | dir, t⟩
      · rw [ho] at hc
        exact h.step hE hc trivial
      · rw [ho] at hc hdir
        exact h.step hE hc (hdir dir rfl)
    readDir := fun h => by
      obtain ⟨hc, hd⟩ := hK.readDir h.2.1.store h.2.2
      exact h.step hE hc hd
    closeDir := fun h => h.step hE (hK.closeDir h.2.1.store h.2.2) trivial
    mkdir := fun path h => h.step hE (hK.mkdir path h.2.1.store) trivial
    usedBlocks := fun h => h.step hE (hK.usedBlocks h.2.1.store) trivial
    await := fun h => ⟨hT _ _ _ _ h.1 h.2.1, fun w hw => hmove h (hK.resumes hok h.2.1 hw)⟩
    look := fun h => hmove h (hK.look h.2.1 .acknowledgement)
    requestStop := fun h => hmove h (h.2.1.same rfl rfl)
    teardown := fun b h => hmove h (hK.teardown h.2.1 b)
    launch := fun path h => hmove h (hK.launch h.2.1 path)
    showFile := fun path h => hmove h (hK.showFile h.2.1 path)
    writeRaw := fun cursor pixels h => hmove h (hK.writeRaw h.2.1 cursor pixels)
    cursor := fun _ h => h }

end Custody

/-! ## All requests -/

/-- What every commit keeps, taking bytes keeps. -/
theorem ChunkBuffer.accept_induct {τ η : Type} {n : Nat} {commit : τ → Bytes → Except η Unit × τ}
    {I : τ → Prop} (hI : ∀ t data, I t → I (commit t data).2) (bytes : Bytes) (c : ChunkBuffer n)
    {t : τ} (h : I t) : I (accept commit bytes c t).2.2 := by
  induction bytes generalizing c t with
  | nil => exact h
  | cons b bs ih =>
    unfold accept
    dsimp only
    split
    · exact ih _ h
    have hc := hI t (c.pending ++ [b]) h
    rcases hr : commit t (c.pending ++ [b]) with ⟨_ | _, t'⟩
    · rwa [hr] at hc
    · rw [hr] at hc
      exact ih _ hc

namespace Custody

/-- The file of the upload, if there is one, is in custody. -/
def Uploading (K : Custody σ φ δ) (u : Option (WriteSession chunk φ)) (s : σ) : Prop :=
  ∀ w, u = some w → K.file s w.file

omit [FileStore σ φ δ] in
theorem Carries.uploading {s s' : σ} (h : K.Carries s s') {u : Option (WriteSession chunk φ)}
    (hu : K.Uploading u s) : K.Uploading u s' :=
  fun w hw => h.file w.file (hu w hw)

namespace Adding

theorem commit (hK : K.Adding) {s : σ} {t : φ × σ} (data : Bytes)
    (h : K.Carries s t.2 ∧ K.file t.2 t.1) :
    K.Carries s (WriteSession.commit t data).2.2 ∧
      K.file (WriteSession.commit t data).2.2 (WriteSession.commit t data).2.1 := by
  obtain ⟨hc, hf⟩ := hK.write data h.1.store h.2
  unfold WriteSession.commit
  rcases hw : FileStore.write t.2 t.1 data with ⟨_ | n, f, s'⟩
  · rw [hw] at hc hf
    exact ⟨h.1.trans hc, hf⟩
  · rw [hw] at hc hf
    dsimp only
    split
    · exact ⟨h.1.trans hc, hf⟩
    · exact ⟨h.1.trans hc, hf⟩

theorem writeSession (hK : K.Adding) {w : WriteSession chunk φ} {s : σ} (id : UInt32) (data : Bytes)
    (enforce : Bool) (hs : K.store s) (hf : K.file s w.file) :
    K.Carries s (w.write s id data enforce).2.2 ∧
      K.file (w.write s id data enforce).2.2 (w.write s id data enforce).2.1.file := by
  unfold WriteSession.write
  split
  · exact ⟨.refl hs, hf⟩
  · exact ChunkBuffer.accept_induct (I := fun t : φ × σ => K.Carries s t.2 ∧ K.file t.2 t.1)
      (fun t data h => hK.commit data h) data w.chunk (t := (w.file, s)) ⟨.refl hs, hf⟩

theorem closeSession (hK : K.Adding) {w : WriteSession chunk φ} {s : σ} (hs : K.store s)
    (hf : K.file s w.file) : K.Carries s (w.close s).2 := by
  have hflush : K.Carries s (w.chunk.flush WriteSession.commit (w.file, s)).2.2.2 ∧
      K.file (w.chunk.flush WriteSession.commit (w.file, s)).2.2.2
        (w.chunk.flush WriteSession.commit (w.file, s)).2.2.1 := by
    unfold ChunkBuffer.flush
    split
    · exact ⟨.refl hs, hf⟩
    · exact hK.commit _ ⟨.refl hs, hf⟩
  have hclose := hflush.1.trans (hK.closeFile hflush.1.store hflush.2)
  unfold WriteSession.close
  dsimp only
  split
  · exact hclose
  · exact hclose
  · exact hclose

variable {ok : Aside σ → Prop} {T : Pause → Device size σ φ → Device size σ φ → Prop}

theorem step (_ : K.Adding) {v s s'} {d : Device size σ φ} {t : σ}
    (h : (K.During K.Uploading .none : Assertion size chunk σ φ ε) v s d) (hc : K.Carries d.store t)
    (hu : K.Uploading s'.endpoint.upload t) :
    (K.During K.Uploading .none : Assertion size chunk σ φ ε) v s' { d with store := t } :=
  ⟨hu, (h.2.1.step hc).under, trivial⟩

theorem call (hK : K.Adding) {α : Type} {f : σ → Except StorageError α × σ}
    (hf : ∀ s, K.store s → K.Carries s (f s).2) {R} :
    Handler.Keeps R T (K.During K.Uploading .none : Assertion size chunk σ φ ε)
      (Handler.callStore f) := by
  refine .call fun v s d h => ?_
  have hc := hf d.store h.2.1.store
  exact hK.step h hc (hc.uploading h.1)

theorem openUpload (hK : K.Adding) {R} (payload : Bytes) :
    Handler.Keeps R T (K.During K.Uploading .none : Assertion size chunk σ φ ε)
      (Handler.openFile payload) := by
  intro v s d h
  rw [Conduct.on_run, Handler.on_openFile]
  split
  · exact h
  rename_i path _
  split
  · exact h
  obtain ⟨hc, hfile⟩ := hK.openAppending path h.2.1.store
  rcases ho : FileStore.openFile d.store path .appending with ⟨_ | f, t⟩
  · rw [ho] at hc
    exact hK.step h hc (hc.uploading h.1)
  · rw [ho] at hc hfile
    refine hK.step h hc fun w hw => ?_
    obtain rfl := Option.some.inj hw
    exact hfile f rfl

theorem writeUpload (hK : K.Adding) {R} (id : UInt32) (payload : Bytes) :
    Handler.Keeps R T (K.During K.Uploading .none : Assertion size chunk σ φ ε)
      (Handler.writeFile id payload) := by
  intro v s d h
  rw [Conduct.on_run, Handler.on_writeFile]
  split
  · exact h
  split
  · exact h
  rename_i w hu
  obtain ⟨hc, hf⟩ := hK.writeSession id payload s.endpoint.config.enforceSequence h.2.1.store
    (h.1 w hu)
  have hput {w' : WriteSession chunk φ} {t : σ} (hf : K.file t w'.file) :
      K.Uploading (some w') t := by
    intro w'' hw
    obtain rfl := Option.some.inj hw
    exact hf
  split
  · rename_i w' t hw
    rw [hw] at hc hf
    exact hK.step h hc (hput hf)
  · rename_i e w' t hw
    rw [hw] at hc hf
    split
    · exact hK.step h (hc.trans (hK.closeFile hc.store hf)) fun _ hn => nomatch hn
    · exact hK.step h hc (hput hf)

private theorem closeUpload (hK : K.Adding) {R} :
    Handler.Keeps R T (K.During K.Uploading .none : Assertion size chunk σ φ ε)
      Handler.closeFile := by
  intro v s d h
  rw [Conduct.on_run, Handler.on_closeFile]
  split
  · exact h
  rename_i w hu
  have hc := hK.closeSession h.2.1.store (h.1 w hu)
  cases (w.close d.store).1 with
  | error e => exact hK.step h hc fun _ hn => nomatch hn
  | ok => exact hK.step h hc fun _ hn => nomatch hn

section

variable (hok : ∀ change s, ok (.alter change) → K.store s → K.Carries s (change s))
  (hT : ∀ p v (u : Option (WriteSession chunk φ)) w,
    K.Uploading u w.store → Device.Under K w → T p v w)
include hok hT

theorem aloof (hK : K.Adding) : Aloof (Device.Resumes ok) T
    (K.During K.Uploading : CommandHandle φ δ → Assertion size chunk σ φ ε) :=
  hK.toSparing.aloof hok (fun _ _ _ h hu => h.uploading hu) hT

/-- A command that takes nothing out of the store keeps the custody. -/
theorem execute (hK : K.Adding) (p : Packet) (hrm : p.command ≠ .rm)
    (hformat : p.command ≠ .format) :
    Handler.Keeps (Device.Resumes ok) T (K.During K.Uploading .none : Assertion size chunk σ φ ε)
      (Handler.execute p) := by
  by_cases hp : p.command.aloof = true
  · exact (hK.aloof hok hT).execute p hp
  unfold Handler.execute
  cases hc : p.command with
  | openFile => exact hK.openUpload _
  | writeFile => exact hK.writeUpload _ _
  | closeFile => exact hK.closeUpload
  | rm => exact absurd hc hrm
  | format => exact absurd hc hformat
  | _ => simp [Command.aloof, hc] at hp

theorem routine (hK : K.Adding) (e : Endpoint chunk φ) (r : Request ε) {d : Device size σ φ}
    (hu : K.Uploading e.upload d.store) (hd : d.Under K)
    (hr : ∀ transport bytes p, r = .frame transport bytes → Packet.decode bytes = .ok p →
      Handler.Keeps (Device.Resumes ok) T (K.During K.Uploading .none : Assertion size chunk σ φ ε)
        (Handler.execute p)) :
    (r.routine e d).Meets (Device.Resumes ok) T
      (fun _ x w => K.Uploading x.2.upload w.store ∧ w.Under K) d := by
  have haloof : Aloof (Device.Resumes ok) T
      (K.During K.Uploading : CommandHandle φ δ → Assertion size chunk σ φ ε) := hK.aloof hok hT
  cases r with
  | frame transport bytes =>
    rw [Request.routine_frame, Run.meets_bind]
    refine (haloof.serve bytes (fun _ _ _ h => h) (fun p hp => hr transport bytes p rfl hp) d
      ⟨e, _⟩ d
      ⟨hu, hd, trivial⟩).imp fun v x w h => ⟨h.1, h.2.1⟩
  | _ =>
    refine (haloof.routine (s := ⟨e, .empty .instant⟩) _ (by simp) ⟨hu, hd, trivial⟩).imp
      fun v x w h => ?_
    rw [h.1]
    exact ⟨h.2.1, h.2.2.1⟩

end

end Adding

namespace Entire

variable {ok : Aside σ → Prop} {T : Pause → Device size σ φ → Device size σ φ → Prop}

/-- What a format does once there is no upload. -/
theorem erase (hK : K.Entire) {R} :
    Handler.Keeps R T (K.During K.Uploading .none : Assertion size chunk σ φ ε) (do
      Handler.modifyEndpoint fun e => { e with cwd := rootDirectory, cursor := 0 }
      Handler.callStore FileStore.format
      Handler.callStore FileStore.mount
      return Handler.done) := by
  refine .bind (.modifyEndpoint (Q := fun _ => K.During K.Uploading .none) fun _ _ _ h => h)
    fun _ => ?_
  refine .bind (hK.call fun _ => hK.format) fun _ => ?_
  exact .bind (hK.call fun _ => hK.mount) fun _ => .skip

theorem wipe (hK : K.Entire) {R} :
    Handler.Keeps R T (K.During K.Uploading .none : Assertion size chunk σ φ ε) Handler.wipe := by
  refine .bind (Q := fun _ => K.During K.Uploading .none) ?_ fun _ => hK.erase
  intro v s d h
  rw [Conduct.on_run, Handler.on_abandonUpload]
  split
  · exact h
  · rename_i w hu
    exact hK.step h (hK.closeFile h.2.1.store (h.1 w hu)) fun _ hn => nomatch hn

variable (hok : ∀ change s, ok (.alter change) → K.store s → K.Carries s (change s))
  (hT : ∀ p v (u : Option (WriteSession chunk φ)) w,
    K.Uploading u w.store → Device.Under K w → T p v w)
include hok hT

theorem execute (hK : K.Entire) (p : Packet) :
    Handler.Keeps (Device.Resumes ok) T (K.During K.Uploading .none : Assertion size chunk σ φ ε)
      (Handler.execute p) := by
  have haloof : Aloof (Device.Resumes ok) T
      (K.During K.Uploading : CommandHandle φ δ → Assertion size chunk σ φ ε) := hK.aloof hok hT
  by_cases hrm : p.command = .rm
  · simp only [Handler.execute, hrm]
    unfold Handler.rm
    refine .bind (haloof.path p.payload) fun path => ?_
    exact .bind (hK.call fun _ => hK.remove path) fun _ => .skip
  by_cases hformat : p.command = .format
  · simp only [Handler.execute, hformat]
    unfold Handler.format
    exact .bind (.always haloof.stop) fun _ => hK.wipe
  exact hK.toAdding.execute hok hT p hrm hformat

theorem routine (hK : K.Entire) (e : Endpoint chunk φ) (r : Request ε) {d : Device size σ φ}
    (hu : K.Uploading e.upload d.store) (hd : d.Under K) :
    (r.routine e d).Meets (Device.Resumes ok) T
      (fun _ x w => K.Uploading x.2.upload w.store ∧ w.Under K) d :=
  hK.toAdding.routine hok hT e r hu hd fun _ _ p _ _ => hK.execute hok hT p

end Entire

end Custody

end PanelLink
