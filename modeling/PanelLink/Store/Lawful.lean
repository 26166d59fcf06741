import PanelLink.Store.Disturbed
import PanelLink.Store.Volume

/-!
Every volume is a lawful file store, and so is a lawful store that is disturbed. Nothing is promised
of reads past the last position: the position of a handle is a 32-bit number and begins again there.
-/
namespace PanelLink

namespace Volume

variable {v v' : Volume}

/-- A handle that is good leaves the volume as it is. -/
theorem eq_of_handleFailure {generation : UInt32}
    (h : v.handleFailure generation = (none, v')) : v' = v := by
  unfold handleFailure at h
  split at h
  · simp at h
  · split at h
    · simp at h
    · exact (Prod.mk.inj h).2.symm

/-- A read gives the file from the position on, and the position moves behind it, modulo the number
of positions. -/
theorem read_eq_ok {f f' : FileHandle} {n : Nat} {b : Bytes}
    (h : v.read f n = (.ok b, f', v')) :
    ∃ contents, v.tree.get? f.key = some (.file contents) ∧ b = slice contents f.pos n ∧
      f' = { f with pos := (f.pos + b.length) % Bytes.wordLimit } ∧ v'.tree = v.tree := by
  unfold read at h
  split at h
  · simp at h
  · rename_i w hw
    obtain rfl := eq_of_handleFailure hw
    dsimp only at h
    split at h
    · simp at h
    · split at h
      · simp at h
      · split at h
        · simp at h
        · simp at h
        · rename_i body hc
          obtain ⟨contents, rfl⟩ := body.exists_ofBytes
          simp only [Prod.mk.injEq, Except.ok.injEq] at h
          obtain ⟨rfl, rfl, rfl⟩ := h
          exact ⟨contents, hc, rfl, rfl, rfl⟩

/-- An entry that is given is the first of those the handle had left. -/
theorem readDir_eq_some {d d' : DirHandle} {e : DirEntry}
    (h : v.readDir d = (.ok (some e), d', v')) : d.entries = e :: d'.entries := by
  unfold readDir at h
  split at h
  · simp at h
  · split at h
    · simp at h
    · rename_i hd
      simp only [Prod.mk.injEq, Except.ok.injEq, Option.some.injEq] at h
      obtain ⟨rfl, rfl, rfl⟩ := h
      exact hd

instance : LawfulFileStore Volume FileHandle DirHandle where
  length_read_le h := by
    obtain ⟨contents, -, rfl, -, -⟩ := read_eq_ok h
    exact List.length_take_le _ _
  entriesLeft_readDir {s s' d d' e} h := by
    change d'.entries.length < d.entries.length
    rw [readDir_eq_some h, List.length_cons]
    omega

end Volume

namespace Disturbed

variable {ι σ φ δ α η : Type} [Disturbance ι]

/-- What comes through the disturbance is an answer of the store. -/
theorem callOn_eq_ok {d d' : Disturbed ι σ} {c : StoreCall} {h h' : η} {a : α}
    {answer : ι → σ → η → Except StorageError α × η × σ}
    (eq : d.callOn c h answer = (.ok a, h', d')) :
    ∃ i, answer i d.store h = (.ok a, h', d'.store) := by
  unfold callOn at eq
  split at eq
  · simp at eq
  · rename_i i _
    simp only [Prod.mk.injEq] at eq
    obtain ⟨ha, hh, rfl⟩ := eq
    exact ⟨i, Prod.ext ha (Prod.ext hh rfl)⟩

theorem limited_le (limit : Option Nat) (n : Nat) : limited limit n ≤ n := by
  unfold limited
  split <;> omega

instance [FileStore σ φ δ] [LawfulFileStore σ φ δ] : LawfulFileStore (Disturbed ι σ) φ δ where
  length_read_le h := by
    obtain ⟨i, h⟩ := callOn_eq_ok h
    exact Nat.le_trans (LawfulFileStore.length_read_le (σ := σ) h) (limited_le _ _)
  entriesLeft_readDir h := by
    obtain ⟨i, h⟩ := callOn_eq_ok h
    exact LawfulFileStore.entriesLeft_readDir (σ := σ) h

end Disturbed

end PanelLink
