import PanelLink.Store.FileStore
import PanelLink.Store.Recorded

/-!
Reading so many bytes of a file: the reads that it takes, in whatever pieces the store gives the
bytes.
-/
namespace PanelLink

variable {σ φ δ : Type} [FileStore σ φ δ]

/-- What a read leaves in the books. -/
theorem Recorded.read_eq {r u : Recorded σ} {t g : Ticket φ} {n : Nat}
    {x : Except StorageError Bytes}
    (h : FileStore.read r t n = (x, g, u)) :
    FileStore.read r.store t.handle n = (x, g.handle, u.store) ∧ g.number = t.number ∧
      u.calls = ⟨.read, some t.number⟩ :: r.calls := by
  have hcall : ((FileStore.read r.store t.handle n).1,
      (⟨t.number, (FileStore.read r.store t.handle n).2.1⟩ : Ticket φ),
      r.note .read (some t.number) (FileStore.read r.store t.handle n).2.2) = (x, g, u) := h
  obtain ⟨rfl, rfl, rfl⟩ := hcall
  exact ⟨rfl, rfl, rfl⟩

namespace FileStore

variable {want m : Nat} {s : σ} {f : φ} {contents : Bytes} {out : Gathered × φ × σ}

/-! ## Files that come in pieces -/

/-- `I` is kept while a file is read: a read gives a part of the bytes that are left, no more than
it was asked for and none only at the end, and the file can be closed. -/
structure Dealing (I : σ → φ → Bytes → Prop) : Prop where
  read {s f rest n} : I s f rest → 0 < n → ∃ b rest' f' s',
    FileStore.read s f n = (.ok b, f', s') ∧ rest = b ++ rest' ∧ b.length ≤ n ∧
      (b = [] → rest = []) ∧ I s' f' rest'
  close {s f rest} : I s f rest → (closeFile s f).1 = .ok ()

/-- Reads through the handle give `contents` in pieces of any size, and nothing fails. -/
def Deals (s : σ) (f : φ) (contents : Bytes) : Prop :=
  ∃ I, Dealing I ∧ I s f contents

theorem Deals.read (h : Deals s f contents) {n : Nat} (hn : 0 < n) : ∃ b rest f' s',
    FileStore.read s f n = (.ok b, f', s') ∧ contents = b ++ rest ∧ b.length ≤ n ∧
      (b = [] → contents = []) ∧ Deals s' f' rest := by
  obtain ⟨I, hI, hs⟩ := h
  obtain ⟨b, rest, f', s', hread, hsplit, hlen, hend, hs'⟩ := hI.read hs hn
  exact ⟨b, rest, f', s', hread, hsplit, hlen, hend, I, hI, hs'⟩

theorem Deals.close (h : Deals s f contents) : (closeFile s f).1 = .ok () := by
  obtain ⟨I, hI, hs⟩ := h
  exact hI.close hs

/-! ## Reads, one after the other -/

/-- A file is read until as many bytes are there as are wanted, a read gives none, or a read fails.
Each read asks for all that is missing; the second number is that of the reads. -/
inductive Gathers : Nat → σ → φ → Nat → Gathered × φ × σ → Prop
  | full {s : σ} {f : φ} : Gathers 0 s f 0 (⟨[], none⟩, f, s)
  | ended {want : Nat} {s s' : σ} {f f' : φ} :
    read s f (want + 1) = (.ok [], f', s') → Gathers (want + 1) s f 1 (⟨[], none⟩, f', s')
  | failed {want : Nat} {s s' : σ} {f f' : φ} {e : StorageError} :
    read s f (want + 1) = (.error e, f', s') → Gathers (want + 1) s f 1 (⟨[], some e⟩, f', s')
  | more {want m : Nat} {s s' : σ} {f f' : φ} {bytes : Bytes} {out : Gathered × φ × σ} :
    bytes ≠ [] → read s f (want + 1) = (.ok bytes, f', s') →
    Gathers (want + 1 - bytes.length) s' f' m out →
      Gathers (want + 1) s f (m + 1) (⟨bytes ++ out.1.bytes, out.1.failure⟩, out.2)

/-- As many tries as there are bytes missing never end the reads early. -/
theorem gather_gathers {tries : Nat} (h : want ≤ tries) (s : σ) (f : φ) :
    ∃ m, Gathers want s f m (gather tries want s f) := by
  induction tries generalizing want s f with
  | zero =>
    obtain rfl : want = 0 := Nat.le_zero.mp h
    exact ⟨0, .full⟩
  | succ tries ih =>
    cases want with
    | zero => exact ⟨0, .full⟩
    | succ want =>
      unfold gather
      rcases hread : read s f (want + 1) with ⟨e | _ | ⟨b, bs⟩, f', s'⟩
      · exact ⟨1, .failed hread⟩
      · exact ⟨1, .ended hread⟩
      · have hleft : want + 1 - (b :: bs).length = want - bs.length := by
          rw [List.length_cons, Nat.add_sub_add_right]
        have hless : want - bs.length ≤ tries := by omega
        obtain ⟨m, hm⟩ := ih hless s' f'
        rw [← hleft] at hm
        dsimp only
        rw [← hleft]
        exact ⟨m + 1, .more (List.cons_ne_nil b bs) hread hm⟩

theorem readFull_gathers (s : σ) (f : φ) (want : Nat) :
    ∃ m, Gathers want s f m (readFull s f want) :=
  gather_gathers (Nat.le_refl want) s f

namespace Gathers

/-- No more reads than bytes. -/
theorem le (h : Gathers want s f m out) : m ≤ want := by
  induction h with
  | full => exact Nat.le_refl 0
  | ended => exact Nat.le_add_left 1 _
  | failed => exact Nat.le_add_left 1 _
  | more hbytes _ _ ih =>
    have hlen := List.length_pos_iff.mpr hbytes
    omega

/-- A store has one run of reads to give. -/
theorem unique {n : Nat} {out' : Gathered × φ × σ} (h : Gathers want s f m out)
    (h' : Gathers want s f n out') : out' = out := by
  -- The next read is the same for both, and its answer tells how the run goes on.
  induction h generalizing n out' with
  | full =>
    cases h'
    rfl
  | ended hread => cases h' <;> simp_all
  | failed hread => cases h' <;> simp_all
  | more hbytes hread _ ih =>
    cases h' with
    | more _ hread' h' =>
      cases hread.symm.trans hread'
      rw [ih h']
    | _ => simp_all

theorem eq (h : Gathers want s f m out) : readFull s f want = out := by
  obtain ⟨n, hn⟩ := readFull_gathers s f want
  exact h.unique hn

/-- Whatever the pieces, they come to the first bytes of the file, and the others are left. -/
theorem deals (h : Gathers want s f m out) (hd : Deals s f contents) :
    out.1 = ⟨contents.take want, none⟩ ∧ Deals out.2.2 out.2.1 (contents.drop want) := by
  induction h generalizing contents with
  | full => exact ⟨rfl, hd⟩
  | @ended want s s' f f' hread =>
    obtain ⟨b, rest, f'', s'', hread', hsplit, -, hend, hd'⟩ := hd.read (Nat.succ_pos want)
    cases hread.symm.trans hread'
    obtain rfl := hend rfl
    obtain rfl : rest = [] := hsplit.symm
    exact ⟨rfl, hd'⟩
  | @failed want s s' f f' e hread =>
    obtain ⟨b, rest, f'', s'', hread', -⟩ := hd.read (Nat.succ_pos want)
    cases hread.symm.trans hread'
  | @more want m s s' f f' bytes out hbytes hread _ ih =>
    obtain ⟨b, rest, f'', s'', hread', rfl, hle, -, hd'⟩ := hd.read (Nat.succ_pos want)
    cases hread.symm.trans hread'
    obtain ⟨hout, hleft⟩ := ih hd'
    rw [List.take_append, List.drop_append, List.take_of_length_le hle,
      List.drop_eq_nil_of_le hle, List.nil_append, hout]
    exact ⟨rfl, hleft⟩

theorem recorded {r : Recorded σ} {t : Ticket φ} {out : Gathered × Ticket φ × Recorded σ}
    (h : Gathers want r t m out) :
    Gathers want r.store t.handle m (out.1, out.2.1.handle, out.2.2.store) ∧
      out.2.1.number = t.number ∧
      out.2.2.calls = List.replicate m ⟨.read, some t.number⟩ ++ r.calls := by
  induction h with
  | full => exact ⟨.full, rfl, rfl⟩
  | ended hread =>
    obtain ⟨hstore, hnumber, hcalls⟩ := Recorded.read_eq hread
    exact ⟨.ended hstore, hnumber, hcalls⟩
  | failed hread =>
    obtain ⟨hstore, hnumber, hcalls⟩ := Recorded.read_eq hread
    exact ⟨.failed hstore, hnumber, hcalls⟩
  | more hbytes hread _ ih =>
    obtain ⟨hstore, hnumber, hcalls⟩ := Recorded.read_eq hread
    obtain ⟨hgathers, hnumber', hcalls'⟩ := ih
    refine ⟨.more hbytes hstore hgathers, hnumber'.trans hnumber, ?_⟩
    rw [hcalls', hcalls, hnumber, List.replicate_succ', List.append_assoc, List.singleton_append]

end Gathers

end FileStore

end PanelLink
