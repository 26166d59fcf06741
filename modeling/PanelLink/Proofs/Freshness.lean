import PanelLink.Proofs.Carrying
import PanelLink.Proofs.Orderly

/-!
Handles do not outlive a format. Every handle that is out is of the present generation of the
volume; a format finds none, for the animation and the upload end before it.
-/
namespace PanelLink

open Device Handler

/-! ## The volume -/

namespace Volume

/-- The volume was not formatted and counted no stale access. -/
structure Abides (v v' : Volume) : Prop where
  generation : v'.generation = v.generation
  staleAccesses : v'.staleAccesses = v.staleAccesses

variable {v v' v'' : Volume}

theorem Abides.refl (v : Volume) : v.Abides v :=
  ⟨rfl, rfl⟩

instance : Std.Refl Abides := ⟨.refl⟩

/-- A handle of this generation is good as long as the volume is mounted. -/
theorem handleFailure_current {generation : UInt32} (h : generation = v.generation) :
    v.handleFailure generation = (v.mountFailure, v) := by
  unfold handleFailure mountFailure
  cases v.mounted <;> simp [h]

theorem openFile_current (v : Volume) (path : Bytes) (flags : OpenFlags) :
    v.Abides (v.openFile path flags).2 ∧
      ∀ f, (v.openFile path flags).1 = .ok f → f.generation = v.generation := by
  obtain ⟨e, he⟩ | ⟨k, -, -, ⟨_, -, -, he⟩ | ⟨_, -, -, he⟩ | ⟨-, -, he⟩⟩ :=
    v.openFile_cases path flags
  · rw [he]
    exact ⟨.refl v, nofun⟩
  all_goals
    rw [he]
    refine ⟨⟨rfl, rfl⟩, fun f hf => ?_⟩
    obtain rfl := Except.ok.inj hf
    rfl

section

variable {f : FileHandle} {d : DirHandle}

theorem closeFile_abides (h : f.generation = v.generation) : v.Abides (v.closeFile f).2 := by
  unfold closeFile
  rw [handleFailure_current h]
  cases v.mountFailure <;> exact .refl v

theorem read_current (h : f.generation = v.generation) (n : Nat) :
    v.Abides (v.read f n).2.2 ∧ (v.read f n).2.1.generation = f.generation := by
  unfold read
  rw [handleFailure_current h]
  cases v.mountFailure with
  | some e => exact ⟨.refl v, rfl⟩
  | none =>
    dsimp only
    split
    · exact ⟨⟨rfl, rfl⟩, rfl⟩
    split
    · exact ⟨⟨rfl, rfl⟩, rfl⟩
    split <;> exact ⟨⟨rfl, rfl⟩, rfl⟩

theorem write_current (h : f.generation = v.generation) (data : Bytes) :
    v.Abides (v.write f data).2.2 ∧ (v.write f data).2.1.generation = f.generation := by
  unfold write
  rw [handleFailure_current h]
  cases v.mountFailure with
  | some e => exact ⟨.refl v, rfl⟩
  | none =>
    dsimp only
    split
    · exact ⟨.refl v, rfl⟩
    split
    · exact ⟨.refl v, rfl⟩
    · exact ⟨.refl v, rfl⟩
    · rename_i contents _
      generalize (if f.flags.append then contents.length else f.pos) = start
      split
      · exact ⟨.refl v, rfl⟩
      · exact ⟨⟨rfl, rfl⟩, rfl⟩

theorem seek_current (h : f.generation = v.generation) (whence : SeekFrom) :
    v.Abides (v.seek f whence).2.2 ∧ (v.seek f whence).2.1.generation = f.generation := by
  unfold seek
  rw [handleFailure_current h]
  cases v.mountFailure with
  | some e => exact ⟨.refl v, rfl⟩
  | none =>
    dsimp only
    split
    · split <;> exact ⟨.refl v, rfl⟩
    · exact ⟨.refl v, rfl⟩

theorem openDir_current (v : Volume) (path : Bytes) :
    v.Abides (v.openDir path).2 ∧
      ∀ d, (v.openDir path).1 = .ok d → d.generation = v.generation := by
  refine ⟨by rw [openDir_tree]; exact .refl v, fun d hd => ?_⟩
  unfold openDir at hd
  split at hd
  · cases hd
  split at hd
  · cases hd
  split at hd
  · cases hd
  · cases hd
  · obtain rfl := Except.ok.inj hd
    rfl

theorem readDir_current (h : d.generation = v.generation) :
    v.Abides (v.readDir d).2.2 ∧ (v.readDir d).2.1.generation = d.generation := by
  unfold readDir
  rw [handleFailure_current h]
  cases v.mountFailure with
  | some e => exact ⟨.refl v, rfl⟩
  | none =>
    dsimp only
    split <;> exact ⟨.refl v, rfl⟩

theorem closeDir_abides (h : d.generation = v.generation) : v.Abides (v.closeDir d).2 := by
  unfold closeDir
  rw [handleFailure_current h]
  cases v.mountFailure <;> exact .refl v

end

theorem stat_abides (v : Volume) (path : Bytes) : v.Abides (v.stat path).2 := by
  rw [stat_tree]
  exact .refl v

theorem remove_abides (v : Volume) (path : Bytes) : v.Abides (v.remove path).2 := by
  unfold remove
  split
  · exact .refl v
  split
  · exact .refl v
  split
  · exact .refl v
  split
  · exact .refl v
  split <;> exact ⟨rfl, rfl⟩

theorem mkdir_abides (v : Volume) (path : Bytes) : v.Abides (v.mkdir path).2 := by
  unfold mkdir
  split
  · exact .refl v
  split
  · exact .refl v
  split
  · exact .refl v
  split
  · exact .refl v
  split <;> exact ⟨rfl, rfl⟩

theorem mount_abides (v : Volume) : v.Abides v.mount.2 := by
  unfold mount
  split <;> exact ⟨rfl, rfl⟩

theorem usedBlocks_abides (v : Volume) : v.Abides v.usedBlocks.2 := by
  rw [usedBlocks_tree]
  exact .refl v

/-- A format makes every handle stale, but meets none. -/
theorem format_staleAccesses (v : Volume) : v.format.2.staleAccesses = v.staleAccesses := by
  unfold format
  split <;> rfl

end Volume

/-! ## The list of calls -/

def StoreCall.gives : StoreCall → Bool
  | openFile | openDir => true
  | _ => false

/-- The handles that were given out since the last format. -/
def liveHandles : List CallRecord → List Nat
  | [] => []
  | c :: cs =>
    if c.call = .format then []
    else if c.call.gives then c.handle.toList ++ liveHandles cs
    else liveHandles cs

/-- Every call through a handle came before any format after the handle was given out. -/
def Timely : List CallRecord → Prop
  | [] => True
  | c :: cs => (c.call.gives = false → ∀ n, c.handle = some n → n ∈ liveHandles cs) ∧ Timely cs

theorem mem_liveHandles {c : CallRecord} {cs : List CallRecord} {n : Nat} (hc : c.call ≠ .format)
    (hn : n ∈ liveHandles cs) : n ∈ liveHandles (c :: cs) := by
  unfold liveHandles
  rw [if_neg hc]
  split
  · exact List.mem_append_right _ hn
  · exact hn

theorem mem_liveHandles_self {c : StoreCall} {cs : List CallRecord} {n : Nat}
    (hc : c.gives = true) : n ∈ liveHandles (⟨c, some n⟩ :: cs) := by
  have hformat : c ≠ .format := by
    rintro rfl
    cases hc
  unfold liveHandles
  rw [if_neg hformat, if_pos hc]
  exact List.mem_cons_self

/-! ## Handles of the present generation -/

theorem PassesOn.current {α η : Type} {v v' : Volume} {h h' : η}
    {answer : Except StorageError α × η × Volume} {r : Except StorageError α} {g : η → UInt32}
    (hp : PassesOn v h answer r h' v') (ha : v.Abides answer.2.2 ∧ g answer.2.1 = g h) :
    v.Abides v' ∧ g h' = g h :=
  ⟨hp.keeps ha.1, hp.handle_eq ha.2⟩

variable {size chunk : Nat} {σ φ δ ε η α : Type} [FileStore σ φ δ] [Backed σ φ δ]

namespace Recorded

/-- `met` stale accesses were counted, and the recorded calls are timely. A handle in custody was
given out since the last format, by the present generation of the volume. -/
def current (σ : Type) {φ δ : Type} [FileStore σ φ δ] [Backed σ φ δ] (met : Nat) :
    Custody (Recorded σ) (Ticket φ) (Ticket δ) where
  store r := (Backed.volume r.store).staleAccesses = met ∧ Timely r.calls
  file r f := f.number ∈ liveHandles r.calls ∧
    (Backed.file σ f.handle).generation = (Backed.volume r.store).generation
  dir r d := d.number ∈ liveHandles r.calls ∧
    (Backed.dir σ d.handle).generation = (Backed.volume r.store).generation

variable {met : Nat} {r : Recorded σ} {c : StoreCall}

theorem current_note {handle : Option Nat} {s : σ}
    (hr : (current σ met).store r)
    (hc : c ≠ .format) (hn : c.gives = false → ∀ n, handle = some n → n ∈ liveHandles r.calls)
    (hs : (Backed.volume r.store).Abides (Backed.volume s)) :
    (current σ met).Carries r (r.note c handle s) where
  store := ⟨hs.staleAccesses.trans hr.1, hn, hr.2⟩
  file _ hf := ⟨mem_liveHandles hc hf.1, hf.2.trans hs.generation.symm⟩
  dir _ hd := ⟨mem_liveHandles hc hd.1, hd.2.trans hs.generation.symm⟩

/-- A call that may give out a handle; `g` tells the generation of what it gives. -/
theorem current_issue {g : η → UInt32} (q : σ → Except StorageError η × σ)
    (hr : (current σ met).store r) (hc : c.gives = true)
    (hq : (Backed.volume r.store).Abides (Backed.volume (q r.store).2) ∧
      ∀ h, (q r.store).1 = .ok h → g h = (Backed.volume r.store).generation) :
    (current σ met).Carries r (r.issue c q).2 ∧
      ∀ t, (r.issue c q).1 = .ok t → t.number ∈ liveHandles (r.issue c q).2.calls ∧
        g t.handle = (Backed.volume (r.issue c q).2.store).generation := by
  have hformat : c ≠ .format := by
    rintro rfl
    cases hc
  obtain ⟨hs, hh⟩ := hq
  unfold issue
  rcases ha : q r.store with ⟨e | h, s⟩
  · rw [ha] at hs
    exact ⟨current_note hr hformat (fun _ => nofun) hs, nofun⟩
  · rw [ha] at hs hh
    have hcarries : (current σ met).Carries r
        (r.note c (some r.issued) s) :=
      current_note hr hformat (fun hg => absurd hc (Bool.eq_false_iff.mp hg)) hs
    refine ⟨⟨hcarries.store, hcarries.file, hcarries.dir⟩, fun t ht => ?_⟩
    obtain rfl := Except.ok.inj ht
    exact ⟨mem_liveHandles_self hc, (hh h rfl).trans hs.generation.symm⟩

theorem current_callOn {g : η → UInt32} {t : Ticket η} (q : σ → η → α × η × σ)
    (hr : (current σ met).store r) (hc : c ≠ .format)
    (ht : t.number ∈ liveHandles r.calls ∧ g t.handle = (Backed.volume r.store).generation)
    (hq : (Backed.volume r.store).Abides (Backed.volume (q r.store t.handle).2.2) ∧
      g (q r.store t.handle).2.1 = g t.handle) :
    (current σ met).Carries r (r.callOn c t q).2.2 ∧
      (r.callOn c t q).2.1.number ∈ liveHandles (r.callOn c t q).2.2.calls ∧
      g (r.callOn c t q).2.1.handle = (Backed.volume (r.callOn c t q).2.2.store).generation := by
  refine ⟨current_note hr hc (fun _ n hn => ?_) hq.1, mem_liveHandles hc ht.1, ?_⟩
  · obtain rfl := Option.some.inj hn
    exact ht.1
  · exact hq.2.trans (ht.2.trans hq.1.generation.symm)

theorem current_redeem {t : Ticket η} (q : σ → η → α × σ)
    (hr : (current σ met).store r) (hc : c ≠ .format)
    (ht : t.number ∈ liveHandles r.calls)
    (hq : (Backed.volume r.store).Abides (Backed.volume (q r.store t.handle).2)) :
    (current σ met).Carries r (r.redeem c t q).2 := by
  refine current_note hr hc (fun _ n hn => ?_) hq
  obtain rfl := Option.some.inj hn
  exact ht

theorem current_call (q : σ → α × σ)
    (hr : (current σ met).store r) (hc : c ≠ .format)
    (hq : (Backed.volume r.store).Abides (Backed.volume (q r.store).2)) :
    (current σ met).Carries r (r.call c q).2 :=
  current_note hr hc (fun _ => nofun) hq

private theorem openFile_generation (s : σ) (path : Bytes) (flags : OpenFlags) :
    (Backed.volume s).Abides (Backed.volume (FileStore.openFile s path flags).2) ∧
      ∀ f, (FileStore.openFile s path flags).1 = .ok f →
        (Backed.file σ f).generation = (Backed.volume s).generation := by
  obtain ⟨habides, hfile⟩ := (Backed.volume s).openFile_current path flags
  have hpass := Backed.openFile s path flags
  refine ⟨hpass.keeps habides, fun f hf => ?_⟩
  rw [hf] at hpass
  obtain h | ⟨⟨e, he⟩, -⟩ := hpass
  · exact hfile _ (congrArg Prod.fst h).symm
  · cases he

private theorem openDir_generation (s : σ) (path : Bytes) :
    (Backed.volume s).Abides (Backed.volume (FileStore.openDir s path).2) ∧
      ∀ d, (FileStore.openDir s path).1 = .ok d →
        (Backed.dir σ d).generation = (Backed.volume s).generation := by
  obtain ⟨habides, hdir⟩ := (Backed.volume s).openDir_current path
  have hpass := Backed.openDir s path
  refine ⟨hpass.keeps habides, fun d hd => ?_⟩
  rw [hd] at hpass
  obtain h | ⟨⟨e, he⟩, -⟩ := hpass
  · exact hdir _ (congrArg Prod.fst h).symm
  · cases he

private theorem current_openFile (path : Bytes) (flags : OpenFlags)
    (hr : (current σ met).store r) :
    (current σ met).Carries r
        (FileStore.openFile r path flags).2 ∧
      ∀ t, (FileStore.openFile r path flags).1 = .ok t →
        (current σ met).file
          (FileStore.openFile r path flags).2 t :=
  current_issue (c := .openFile) (g := fun f => (Backed.file σ f).generation)
    (FileStore.openFile · path flags) hr rfl (openFile_generation r.store path flags)

theorem current_adding :
    (current σ met).Adding where
  read {r f} n hr hf := by
    obtain ⟨m, -, hpass⟩ := Backed.read r.store f.handle n
    exact current_callOn (c := .read) (g := fun f => (Backed.file σ f).generation)
      (FileStore.read · · n) hr nofun hf
      (hpass.current (g := FileHandle.generation) (Volume.read_current hf.2 m))
  seek {r f} whence hr hf :=
    current_callOn (c := .seek) (g := fun f => (Backed.file σ f).generation)
      (FileStore.seek · · whence) hr nofun hf
      ((Backed.seek r.store f.handle whence).current (g := FileHandle.generation)
        (Volume.seek_current hf.2 whence))
  openFile path _ hr := current_openFile path _ hr
  closeFile {r f} hr hf :=
    current_redeem (c := .closeFile) FileStore.closeFile hr nofun hf.1
      ((Backed.closeFile r.store f.handle).keeps (Volume.closeFile_abides hf.2))
  stat {r} path hr :=
    current_call (c := .stat) (FileStore.stat · path) hr nofun
      ((Backed.stat r.store path).keeps (Volume.stat_abides _ path))
  openDir {r} path hr :=
    current_issue (c := .openDir) (g := fun d => (Backed.dir σ d).generation)
      (FileStore.openDir · path) hr rfl (openDir_generation r.store path)
  readDir {r d} hr hd :=
    current_callOn (c := .readDir) (g := fun d => (Backed.dir σ d).generation)
      FileStore.readDir hr nofun hd
      ((Backed.readDir r.store d.handle).current (g := DirHandle.generation)
        (Volume.readDir_current hd.2))
  closeDir {r d} hr hd :=
    current_redeem (c := .closeDir) FileStore.closeDir hr nofun hd.1
      ((Backed.closeDir r.store d.handle).keeps (Volume.closeDir_abides hd.2))
  mkdir {r} path hr :=
    current_call (c := .mkdir) (FileStore.mkdir · path) hr nofun
      ((Backed.mkdir r.store path).keeps (Volume.mkdir_abides _ path))
  usedBlocks {r} hr :=
    current_call (c := .usedBlocks) FileStore.usedBlocks hr nofun
      ((Backed.usedBlocks r.store).keeps (Volume.usedBlocks_abides _))
  openAppending path hr := current_openFile path .appending hr
  write {r f} data hr hf := by
    obtain ⟨m, -, hpass⟩ := Backed.write r.store f.handle data
    exact current_callOn (c := .write) (g := fun f => (Backed.file σ f).generation)
      (FileStore.write · · data) hr nofun hf
      (hpass.current (g := FileHandle.generation) (Volume.write_current hf.2 (data.take m)))

theorem current_remove (path : Bytes)
    (hr : (current σ met).store r) :
    (current σ met).Carries r
      (FileStore.remove r path).2 :=
  current_call (c := .remove) (FileStore.remove · path) hr nofun
    ((Backed.remove r.store path).keeps (Volume.remove_abides _ path))

theorem current_mount (hr : (current σ met).store r) :
    (current σ met).Carries r
      (FileStore.mount r).2 :=
  current_call (c := .mount) FileStore.mount hr nofun
    ((Backed.mount r.store).keeps (Volume.mount_abides _))

theorem current_format (hr : (current σ met).store r) :
    (current σ met).store (FileStore.format r).2 := by
  refine ⟨?_, fun _ => nofun, hr.2⟩
  show (Backed.volume (FileStore.format r.store).2).staleAccesses = met
  rw [← hr.1]
  obtain h | ⟨-, h⟩ := Backed.format r.store
  · have hv : Backed.volume (FileStore.format r.store).2 = (Backed.volume r.store).format.2 :=
      congrArg Prod.snd h
    rw [hv, Volume.format_staleAccesses]
  · rw [h]

end Recorded

/-- The change is not recorded as a call, and it neither formats the volume nor uses a handle. -/
def Aside.Spares : Aside (Recorded σ) → Prop
  | .alter change => ∀ r, ∃ t, change r = { r with store := t } ∧
      (Backed.volume r.store).Abides (Backed.volume t)
  | _ => True

open Recorded

variable {ok : Aside (Recorded σ) → Prop} {met : Nat}
  {R T : Pause → Device size (Recorded σ) (Ticket φ) → Device size (Recorded σ) (Ticket φ) → Prop}

theorem current_carries (hok : ∀ a, ok a → a.Spares) (change : Recorded σ → Recorded σ)
    (r : Recorded σ) (hchange : ok (.alter change))
    (hr : (current σ met).store r) :
    (current σ met).Carries r (change r) := by
  have hspares : (Aside.alter change : Aside (Recorded σ)).Spares := hok _ hchange
  obtain ⟨t, ht, habides⟩ := hspares r
  rw [ht]
  exact ⟨⟨habides.staleAccesses.trans hr.1, hr.2⟩,
    fun _ hf => ⟨hf.1, hf.2.trans habides.generation.symm⟩,
    fun _ hd => ⟨hd.1, hd.2.trans habides.generation.symm⟩⟩

/-! ## A format -/

omit [Backed σ φ δ] in
private theorem teardown_closed (d : Device size σ φ) (wasPlaying : Bool) :
    (d.teardown wasPlaying).file = none := by
  have hclosed : d.closeAnimation.file = none := by
    unfold closeAnimation
    split
    · assumption
    · rfl
  unfold teardown
  dsimp only
  split <;> exact hclosed

omit [Backed σ φ δ] in
/-- However the wait of a stop goes, no animation has its file open after it. -/
theorem stop_closes {R : Pause → Device size σ φ → Device size σ φ → Prop} (v d : Device size σ φ) :
    (Device.stop d).Meets R anyhow (fun _ _ w => w.file = none) v := by
  rw [Device.stop_eq]
  split
  · rw [Run.meets_bind]
    exact Run.meets_of_forall (fun _ _ _ => trivial) (fun _ _ w => teardown_closed w _) v _
  · exact teardown_closed _ _

abbrev Fresh (σ : Type) {φ δ : Type} [FileStore σ φ δ] [Backed σ φ δ] (met : Nat) :
    Assertion size chunk (Recorded σ) (Ticket φ) ε :=
  (current σ met).During (current σ met).Uploading .none

abbrev HandlesGood (σ : Type) {φ δ : Type} [FileStore σ φ δ] [Backed σ φ δ] (met : Nat) :
    Pause → Device size (Recorded σ) (Ticket φ) → Device size (Recorded σ) (Ticket φ) → Prop :=
  fun _ _ w => w.Under (current σ met)

def Unburdened (σ : Type) {φ δ : Type} [FileStore σ φ δ] [Backed σ φ δ] (met : Nat) :
    Assertion size chunk (Recorded σ) (Ticket φ) ε :=
  fun _ s d => (current σ met).store d.store ∧ d.file = none ∧ s.endpoint.upload = none

theorem Unburdened.fresh {v d : Device size (Recorded σ) (Ticket φ)}
    {s : Serving chunk (Ticket φ) ε} (h : Unburdened σ met v s d) : Fresh σ met v s d := by
  refine ⟨fun w hw => ?_, ⟨h.1, fun f hf => ?_⟩, trivial⟩
  · cases h.2.2.symm.trans hw
  · cases h.2.1.symm.trans hf

private theorem unburdened_call {f : Recorded σ → Except StorageError α × Recorded σ}
    (hf : ∀ r, (current σ met).store r → (current σ met).store (f r).2) :
    Handler.Keeps R T
      (Unburdened σ met : Assertion size chunk (Recorded σ) (Ticket φ) ε)
      (Handler.callStore f) :=
  Triple.call fun _ _ d h => ⟨hf d.store h.1, h.2⟩

private theorem abandonUpload_unburdens :
    Handler.Triple R T
      (fun v s d => Fresh σ met v s d ∧ d.file = none)
      (Handler.abandonUpload : Handler size chunk (Recorded σ) (Ticket φ) ε Unit)
      (fun _ => Unburdened σ met) (Unburdened σ met) := by
  intro v s d h
  obtain ⟨⟨hupload, hd, -⟩, hfile⟩ := h
  rw [Conduct.on_run, Handler.on_abandonUpload]
  split
  · rename_i hu
    exact ⟨hd.store, hfile, hu⟩
  · rename_i w hu
    exact ⟨(current_adding.closeFile hd.store (hupload w hu)).store, hfile, rfl⟩

/-- By the time of the format no handle is out. -/
theorem fresh_wipe :
    Handler.Triple R T
      (fun v s d => Fresh σ met v s d ∧ d.file = none)
      (Handler.wipe : Handler size chunk (Recorded σ) (Ticket φ) ε Reply)
      (fun _ => Unburdened σ met) (Unburdened σ met) := by
  unfold Handler.wipe
  refine .bind abandonUpload_unburdens fun _ => ?_
  refine .bind (.modifyEndpoint (Q := fun _ => Unburdened σ met) fun _ _ _ h => h) fun _ => ?_
  refine .bind (unburdened_call fun r h => current_format h) fun _ => ?_
  exact .bind (unburdened_call fun r h => (current_mount h).store) fun _ => .skip

private theorem fresh_aloof (hok : ∀ a, ok a → a.Spares) :
    Aloof (Resumes ok) (HandlesGood σ met) ((current σ met).During (current σ met).Uploading :
      CommandHandle (Ticket φ) (Ticket δ) → Assertion size chunk (Recorded σ) (Ticket φ) ε) :=
  current_adding.aloof (current_carries hok) fun _ _ _ _ _ h => h

private theorem fresh_stop (hok : ∀ a, ok a → a.Spares) :
    Conduct.Triple (Resumes ok) (HandlesGood σ met) (Fresh σ met)
      (Conduct.ofRoutine Device.stop : Conduct size chunk (Recorded σ) (Ticket φ) ε Bool)
      fun _ v s d => Fresh σ met v s d ∧ d.file = none := by
  refine .ofRoutine fun v s d h => ?_
  have hkept : ((Device.stop d).bind .done).Meets (Resumes ok) (HandlesGood σ met)
      (fun v _ w => Fresh σ met v s w) v :=
    (fresh_aloof hok).stop_then h fun _ _ _ hw => hw
  rw [Run.bind_done] at hkept
  exact (hkept.and (stop_closes v d)).mono fun _ _ _ h => h.1

private theorem fresh_execute (hok : ∀ a, ok a → a.Spares) (p : Packet) :
    Handler.Keeps (Resumes ok) (HandlesGood σ met) (Fresh σ met)
      (Handler.execute p : Handler size chunk (Recorded σ) (Ticket φ) ε Reply) := by
  by_cases hrm : p.command = .rm
  · simp only [Handler.execute, hrm]
    refine .bind (.pathArgument (fun _ _ _ _ h _ => h) fun _ _ _ h => h) fun path => ?_
    exact .bind (current_adding.call fun _ => current_remove path) fun _ => .skip
  by_cases hformat : p.command = .format
  · simp only [Handler.execute, hformat]
    exact .bind (.always (fresh_stop hok)) fun _ =>
      fresh_wipe.weaken (fun _ _ _ h => h) (fun _ _ _ _ h => h.fresh) fun _ _ _ h => h.fresh
  exact current_adding.execute (current_carries hok) (fun _ _ _ _ _ h => h) p hrm hformat

namespace Scene

/-- No handle is used after the volume was formatted, if nothing but the command formats it. The
volume counts no access through a stale handle, and each call through a handle came before any
format after the handle was given out. -/
theorem stale_handles_unused (config : Config) (timing : Timing) (store : σ)
    {as : List (Action (Recorded σ) ε)} (has : ∀ a, .aside a ∈ as → a.Spares) :
    let s : Scene size chunk (Recorded σ) (Ticket φ) ε :=
      (initial config timing (.ofStore store)).after as
    (Backed.volume s.device.store.store).staleAccesses = (Backed.volume store).staleAccesses ∧
      Timely s.device.store.calls := by
  intro s
  let K := current σ (Backed.volume store).staleAccesses
  have hK : K.Adding := current_adding
  have hcarries (change : Recorded σ → Recorded σ) (r : Recorded σ)
      (hchange : (Aside.alter change).Spares) (hr : K.store r) : K.Carries r (change r) :=
    current_carries (fun _ h => h) change r hchange hr
  have hs : s.Entrusted Aside.Spares K := by
    refine after_induct (fun a => ∀ x, a = .aside x → x.Spares) (fun s a ha hs => ?_)
      (fun a ha x hx => has x (hx ▸ ha)) (.initial ⟨rfl, trivial⟩)
    refine hs.step hK.toReading hcarries (fun e r d hu hd => ?_) ha
    exact hK.routine hcarries (fun _ _ _ _ _ h => h) e r hu hd
      fun _ _ p _ _ => fresh_execute (fun _ h => h) p
  exact hs.under.store

/-- A format that fails and one that does not find an upload and an animation to end. -/
theorem handles_end_before_formats :
    let volume := (Volume.fresh 1 8).put [[97]] (.file [7, 8])
    let send (command : Command) (payload : Bytes) :
        Action (Recorded (Disturbed Mishap Volume)) Unit :=
      .request (.frame .instant (Packet.frame ⟨command, 0, payload⟩))
    let fault : Mishap := { fault := some ⟨.format, 0, .io⟩ }
    let as := [.request (.start [97]), send .openFile [98], send .writeFile [1, 2], .aside .poll,
      .aside (.alter fun r => { r with store := { r.store with disturbance := fault } }),
      send .format [], .aside .tick, .aside .poll, .resume,
      .request (.start [97]), .aside .poll, send .openFile [98], send .format [], .aside .poll,
      .aside .poll, .resume]
    let s : Scene 1 2 (Recorded (Disturbed Mishap Volume)) (Ticket FileHandle) Unit :=
      (initial {} ⟨1, 1⟩ (.ofStore ⟨{}, volume⟩)).after as
    let r := s.device.store
    r.calls.count ⟨.format, none⟩ = 2 ∧ r.store.store.generation = 1 ∧
      (∀ a, .aside a ∈ as → a.Spares) ∧ r.store.store.staleAccesses = 0 ∧ Timely r.calls := by
  intro volume send fault as s r
  have has : ∀ a, .aside a ∈ as → a.Spares := by
    intro a ha
    simp only [as, send, List.mem_cons, List.not_mem_nil, or_false, reduceCtorEq, false_or,
      Action.aside.injEq] at ha
    obtain rfl | rfl | rfl | rfl | rfl | rfl | rfl := ha
    all_goals first
      | trivial
      | exact fun r => ⟨_, rfl, .refl _⟩
  have hformats : r.calls.count ⟨.format, none⟩ = 2 := by decide +kernel
  have hgeneration : r.store.store.generation = 1 := by decide +kernel
  refine ⟨hformats, hgeneration, has, ?_⟩
  have hvolume (d : Disturbed Mishap Volume) : d.store = Backed.volume d := rfl
  rw [hvolume]
  unfold r s
  exact stale_handles_unused {} ⟨1, 1⟩ (⟨{}, volume⟩ : Disturbed Mishap Volume) has

end Scene

end PanelLink
