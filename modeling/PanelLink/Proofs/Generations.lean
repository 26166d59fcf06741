import PanelLink.Proofs.Calls
import PanelLink.Proofs.Freshness

/-!
Handles die with a format. A handle carries the generation of the volume that gave it out, every
call through it compares the two before anything else, and only a format that goes through moves the
volume on. So the age of a handle, counted in formats, tells what becomes of it.
-/
namespace PanelLink

namespace Volume

variable {v w : Volume} {c : Call} {h : CommandHandle FileHandle DirHandle} {g : UInt32} {n : Nat}
  {e : StorageError}

def givenBy : CommandHandle FileHandle DirHandle → Option UInt32
  | .none => none
  | .file f => some f.generation
  | .dir d => some d.generation

/-- The call reads or writes a file that was not opened for it. -/
def Call.unfit : Call → Bool
  | read f _ => !f.flags.read
  | write f _ => !f.flags.write
  | _ => false

/-! ## One call -/

theorem perform_refused (hc : givenBy c.handle = some g) (hg : v.handleFailure g = (some e, w)) :
    v.perform c = ⟨some e, c.handle, w⟩ := by
  cases c with
  | openFile | stat | openDir | remove | mkdir | format | mount | usedBlocks => cases hc
  | closeFile f =>
    cases hc
    simp only [perform, closeFile, hg, answer, failure, Call.handle]
  | read f n =>
    cases hc
    simp only [perform, read, hg, failure, Call.handle]
  | write f data =>
    cases hc
    simp only [perform, write, hg, failure, Call.handle]
  | seek f whence =>
    cases hc
    simp only [perform, seek, hg, failure, Call.handle]
  | readDir d =>
    cases hc
    simp only [perform, readDir, hg, failure, Call.handle]
  | closeDir d =>
    cases hc
    simp only [perform, closeDir, hg, answer, failure, Call.handle]

/-- A handle of the present generation stays one, and no such call counts as stale. -/
theorem perform_current (hc : givenBy c.handle = some v.generation) :
    v.Abides (v.perform c).volume ∧ givenBy (v.perform c).handle = some v.generation := by
  cases c with
  | openFile | stat | openDir | remove | mkdir | format | mount | usedBlocks => cases hc
  | closeFile f => exact ⟨closeFile_abides (Option.some.inj hc), hc⟩
  | read f n =>
    obtain ⟨habides, hgiven⟩ := read_current (Option.some.inj hc) n
    exact ⟨habides, (congrArg some hgiven).trans hc⟩
  | write f data =>
    obtain ⟨habides, hgiven⟩ := write_current (Option.some.inj hc) data
    exact ⟨habides, (congrArg some hgiven).trans hc⟩
  | seek f whence =>
    obtain ⟨habides, hgiven⟩ := seek_current (Option.some.inj hc) whence
    exact ⟨habides, (congrArg some hgiven).trans hc⟩
  | readDir d =>
    obtain ⟨habides, hgiven⟩ := readDir_current (Option.some.inj hc)
    exact ⟨habides, (congrArg some hgiven).trans hc⟩
  | closeDir d => exact ⟨closeDir_abides (Option.some.inj hc), hc⟩

theorem handleFailure_mounted (hm : v.mounted = true) :
    v.handleFailure v.generation = (none, v) := by
  rw [handleFailure_current rfl, mountFailure, if_pos hm]

/-- A handle of the present generation is bad for nothing but what it was not opened for. -/
theorem perform_badHandle (hc : givenBy c.handle = some v.generation) (hm : v.mounted = true) :
    (v.perform c).failure = some .badHandle ↔ c.unfit = true := by
  have hgood := handleFailure_mounted hm
  cases c with
  | openFile | stat | openDir | remove | mkdir | format | mount | usedBlocks => cases hc
  | closeFile f => simp [perform, closeFile, Option.some.inj hc, hgood, answer, failure, Call.unfit]
  | read f n =>
    simp only [perform, read, Option.some.inj hc, hgood, Call.unfit]
    cases f.flags.read with
    | false => simp [failure]
    | true =>
      split
      · contradiction
      split
      · simp [failure]
      split <;> simp [failure]
  | write f data =>
    simp only [perform, write, Option.some.inj hc, hgood, Call.unfit]
    cases f.flags.write with
    | false => simp [failure]
    | true =>
      split
      · contradiction
      split
      · simp [failure]
      · simp [failure]
      · rename_i contents _
        generalize (if f.flags.append = true then contents.length else f.pos) = start
        split <;> simp [failure]
  | seek f whence =>
    simp only [perform, seek, Option.some.inj hc, hgood, Call.unfit]
    split
    · split <;> simp [failure]
    · simp [failure]
  | readDir d =>
    simp only [perform, readDir, Option.some.inj hc, hgood, Call.unfit]
    split <;> simp [failure]
  | closeDir d => simp [perform, closeDir, Option.some.inj hc, hgood, answer, failure, Call.unfit]

theorem perform_other (hc : givenBy c.handle = some g) (hg : g ≠ v.generation) :
    v.perform c =
      if v.mounted then ⟨some .badHandle, c.handle, { v with staleAccesses := v.staleAccesses + 1 }⟩
      else ⟨some .notMounted, c.handle, v⟩ := by
  cases hm : v.mounted with
  | true => exact perform_refused hc (by simp [handleFailure, hm, hg])
  | false => exact perform_refused hc (by simp [handleFailure, hm])

theorem perform_unmounted (hc : givenBy c.handle = some g) (hm : v.mounted = false) :
    v.perform c = ⟨some .notMounted, c.handle, v⟩ :=
  perform_refused hc (by simp [handleFailure, hm])

/-! ## What moves a volume on -/

theorem format_generation (h : v.format = (.ok (), w)) : w.generation = v.generation + 1 := by
  unfold format at h
  split at h
  · cases h
  · cases h
    rfl

/-- A call through a handle leaves the generations as they are, its handle's and the volume's. -/
theorem perform_givenBy (v : Volume) (hc : givenBy c.handle = some g) :
    givenBy (v.perform c).handle = some g ∧ (v.perform c).volume.generation = v.generation := by
  by_cases hg : g = v.generation
  · subst hg
    obtain ⟨habides, hgiven⟩ := perform_current hc
    exact ⟨hgiven, habides.generation⟩
  · rw [perform_other hc hg]
    split <;> exact ⟨hc, rfl⟩

private theorem perform_generation (hformat : c = .format → (v.perform c).failure ≠ none) :
    (v.perform c).volume.generation = v.generation := by
  cases hc : givenBy c.handle with
  | some g => exact (v.perform_givenBy hc).2
  | none =>
    cases c with
    | closeFile | read | write | seek | readDir | closeDir => cases hc
    | openFile path flags => exact (v.openFile_current path flags).1.generation
    | stat path => exact (v.stat_abides path).generation
    | openDir path => exact (v.openDir_current path).1.generation
    | remove path => exact (v.remove_abides path).generation
    | mkdir path => exact (v.mkdir_abides path).generation
    | mount => exact v.mount_abides.generation
    | usedBlocks => exact v.usedBlocks_abides.generation
    | format =>
      obtain ⟨e, he⟩ := Option.ne_none_iff_exists'.mp (hformat rfl)
      exact congrArg generation (format_failed he)

/-! ## Any run -/

/-- The handle was given out in a run that goes on to the volume, and `n` formats succeeded since.
Calls through the handle move it on; any other calls may come between, those through other handles
and formats that fail included. -/
inductive Kept : CommandHandle FileHandle DirHandle → Volume → Nat → Prop
  | openFile {v w : Volume} {path : Bytes} {flags : OpenFlags} {f : FileHandle} :
      v.openFile path flags = (.ok f, w) → Kept (.file f) w 0
  | openDir {v w : Volume} {path : Bytes} {d : DirHandle} :
      v.openDir path = (.ok d, w) → Kept (.dir d) w 0
  | through {h : CommandHandle FileHandle DirHandle} {v : Volume} {n : Nat} {c : Call} :
      Kept h v n → c.handle = h → Kept (v.perform c).handle (v.perform c).volume n
  | beside {h : CommandHandle FileHandle DirHandle} {v : Volume} {n : Nat} {c : Call} :
      Kept h v n → (c = .format → (v.perform c).failure ≠ none) → Kept h (v.perform c).volume n
  | format {h : CommandHandle FileHandle DirHandle} {v w : Volume} {n : Nat} :
      Kept h v n → v.format = (.ok (), w) → Kept h w (n + 1)
  | setReadFault {h : CommandHandle FileHandle DirHandle} {v : Volume} {n : Nat}
      (path : Option Bytes) :
      Kept h v n → Kept h (v.setReadFault path) n

/-- The volume is ahead of the handle by the formats that went through. -/
theorem Kept.ahead (hk : Kept h v n) :
    ∃ g, givenBy h = some g ∧ v.generation = g + UInt32.ofNat n := by
  induction hk with
  | @openFile v w path flags f hf =>
    obtain ⟨habides, hgiven⟩ := v.openFile_current path flags
    rw [hf] at habides hgiven
    exact ⟨f.generation, rfl, by simpa [hgiven f rfl] using habides.generation⟩
  | @openDir v w path d hd =>
    obtain ⟨habides, hgiven⟩ := v.openDir_current path
    rw [hd] at habides hgiven
    exact ⟨d.generation, rfl, by simpa [hgiven d rfl] using habides.generation⟩
  | @through h v n c _ hc ih =>
    obtain ⟨g, hg, hv⟩ := ih
    obtain ⟨hgiven, hgeneration⟩ := v.perform_givenBy (c := c) (hc ▸ hg)
    exact ⟨g, hgiven, hgeneration.trans hv⟩
  | beside _ hformat ih =>
    obtain ⟨g, hg, hv⟩ := ih
    exact ⟨g, hg, (perform_generation hformat).trans hv⟩
  | @format h v w n _ hformat ih =>
    obtain ⟨g, hg, hv⟩ := ih
    have hnext : UInt32.ofNat (n + 1) = UInt32.ofNat n + 1 := UInt32.ofNat_add n 1
    exact ⟨g, hg, by rw [format_generation hformat, hv, hnext, UInt32.add_assoc]⟩
  | setReadFault path _ ih => exact ih

theorem Kept.current (hk : Kept h v 0) : givenBy h = some v.generation := by
  obtain ⟨g, hg, hv⟩ := hk.ahead
  rw [hg, hv]
  simp

/-- The generations come round again only after as many formats as there are words. -/
theorem Kept.other (hk : Kept h v n) (hpos : 0 < n) (hlt : n < Bytes.wordLimit) :
    ∃ g, givenBy h = some g ∧ g ≠ v.generation := by
  obtain ⟨g, hg, hv⟩ := hk.ahead
  refine ⟨g, hg, fun heq => ?_⟩
  have hzero : UInt32.ofNat n = 0 := by
    have hsum : g + UInt32.ofNat n = g + 0 := by rw [← hv, heq, UInt32.add_zero]
    exact (UInt32.add_right_inj g).mp hsum
  have hmod : n % Bytes.wordLimit = 0 := congrArg UInt32.toNat hzero
  rw [Nat.mod_eq_of_lt hlt] at hmod
  omega

/-- A handle that a format outlived is refused by every call through it, and the call changes
nothing but the count of stale accesses, which goes up by one while the volume is mounted. A handle
that no format outlived is never counted, and never bad for what it was opened for, whatever was
removed, made anew or mounted again. -/
theorem dies_with_format (hk : Kept h v n) (hc : c.handle = h) :
    (0 < n → n < Bytes.wordLimit →
      (v.mounted = true →
        v.perform c = ⟨some .badHandle, h, { v with staleAccesses := v.staleAccesses + 1 }⟩) ∧
      (v.mounted = false → v.perform c = ⟨some .notMounted, h, v⟩)) ∧
    (n = 0 →
      (v.perform c).volume.staleAccesses = v.staleAccesses ∧
      (v.mounted = true → ((v.perform c).failure = some .badHandle ↔ c.unfit = true)) ∧
      (v.mounted = false → v.perform c = ⟨some .notMounted, h, v⟩)) := by
  subst hc
  refine ⟨fun hpos hlt => ?stale, fun hzero => ?current⟩
  case stale =>
    obtain ⟨g, hgiven, hother⟩ := hk.other hpos hlt
    have hperform := perform_other hgiven hother
    refine ⟨fun hm => ?_, perform_unmounted hgiven⟩
    rw [hperform, if_pos hm]
  case current =>
    subst hzero
    have hgiven := hk.current
    exact ⟨(perform_current hgiven).1.staleAccesses, perform_badHandle hgiven,
      perform_unmounted hgiven⟩

/-- A file that is made anew after a format, mounted twice, is out of reach of the old handle to its
path, but not of its own. -/
theorem recreated_file_is_apart :
    let made := (fresh 16 64).perform (.openFile [0x61] .creating)
    let mounted := ((made.volume.perform .format).volume.perform .mount).volume.perform .mount
    let anew := mounted.volume.perform (.openFile [0x61] .creating)
    let old : FileHandle := ⟨[[0x61]], 0, .creating, 0⟩
    let new : FileHandle := ⟨[[0x61]], 0, .creating, 1⟩
    let v := anew.volume
    Kept (.file old) v 1 ∧ Kept (.file new) v 0 ∧
    v.perform (.write old [7]) = ⟨some .badHandle, .file old, { v with staleAccesses := 1 }⟩ ∧
    (v.perform (.write new [7])).volume.staleAccesses = 0 ∧
    (v.perform (.write new [7])).failure ≠ some .badHandle := by
  intro made mounted anew old new v
  have hmade : Kept (.file old) made.volume 0 :=
    @Kept.openFile (fresh 16 64) _ [0x61] .creating old rfl
  have hformatted : Kept (.file old) (made.volume.perform .format).volume 1 := hmade.format rfl
  have hmounted : Kept (.file old) mounted.volume 1 :=
    (hformatted.beside (c := .mount) nofun).beside (c := .mount) nofun
  have hold : Kept (.file old) v 1 := hmounted.beside (c := .openFile [0x61] .creating) nofun
  have hnew : Kept (.file new) v 0 :=
    @Kept.openFile mounted.volume _ [0x61] .creating new rfl
  have hstale := dies_with_format hold (c := .write old [7]) rfl
  obtain ⟨hcount, hbad, -⟩ := (dies_with_format hnew (c := .write new [7]) rfl).2 rfl
  refine ⟨hold, hnew, (hstale.1 Nat.one_pos (by decide)).1 rfl, hcount, fun h => ?_⟩
  exact Bool.noConfusion ((hbad rfl).mp h)

end Volume

end PanelLink
