import PanelLink.Proofs.Custody
import PanelLink.Store.Recorded

/-!
Accounts of the handles. Each number that was given out was taken back, or stands on a handle that
somebody has, and never both; so nothing leaks and nothing is closed twice.
-/
namespace PanelLink

variable {σ φ δ η α : Type}

namespace EntryKind

def opening : EntryKind → StoreCall
  | file => .openFile
  | dir => .openDir

def closing : EntryKind → StoreCall
  | file => .closeFile
  | dir => .closeDir

theorem opening_inj {k k' : EntryKind} : k.opening = k'.opening ↔ k = k' := by
  cases k <;> cases k' <;> decide

theorem closing_inj {k k' : EntryKind} : k.closing = k'.closing ↔ k = k' := by
  cases k <;> cases k' <;> decide

theorem opening_ne_closing (k k' : EntryKind) : k.opening ≠ k'.closing := by
  cases k <;> cases k' <;> decide

end EntryKind

/-- Whether the call gives out a handle or takes one back. -/
def StoreCall.trades : StoreCall → Bool
  | openFile | closeFile | openDir | closeDir => true
  | _ => false

theorem EntryKind.trades (k : EntryKind) : k.opening.trades = true ∧ k.closing.trades = true := by
  cases k <;> decide

abbrev Open := EntryKind × Nat

namespace Recorded

/-- How many recorded calls of this kind have the handle `n`. -/
def times (r : Recorded σ) (c : StoreCall) (n : Nat) : Nat :=
  r.calls.count ⟨c, some n⟩

/-- Every handle that was given out has been taken back, or is in the list. -/
structure Balanced (r : Recorded σ) (held : List Open) : Prop where
  issued : ∀ c ∈ r.calls, ∀ n, c.handle = some n → n < r.issued
  once (n : Nat) : r.times EntryKind.file.opening n + r.times EntryKind.dir.opening n ≤ 1
  balance (k : EntryKind) (n : Nat) :
    r.times k.opening n = r.times k.closing n + held.count (k, n)

variable {r : Recorded σ} {held held' : List Open} {c c' : StoreCall} {k : EntryKind} {n : Nat}

theorem times_note (r : Recorded σ) (c c' : StoreCall) (handle : Option Nat) (s : σ) (n : Nat) :
    (r.note c handle s).times c' n =
      r.times c' n + if c = c' ∧ handle = some n then 1 else 0 := by
  simp [times, note, List.count_cons]

theorem times_of_not (s : σ) {handle : Option Nat} (h : c = c' → handle ≠ some n) :
    (r.note c handle s).times c' n = r.times c' n := by
  rw [times_note, if_neg fun hc => h hc.1 hc.2, Nat.add_zero]

theorem count_open (k k' : EntryKind) (m n : Nat) (held : List Open) :
    ((k', m) :: held).count (k, n) = held.count (k, n) + if k' = k ∧ m = n then 1 else 0 := by
  simp [List.count_cons]

namespace Balanced

theorem ofStore (s : σ) : (Recorded.ofStore s).Balanced [] where
  issued := nofun
  once _ := Nat.zero_le 1
  balance _ _ := rfl

theorem opened_once (h : r.Balanced held) (k : EntryKind) (n : Nat) : r.times k.opening n ≤ 1 := by
  have honce := h.once n
  cases k with
  | file => exact Nat.le_of_add_right_le honce
  | dir => exact Nat.le_of_add_left_le honce

theorem closed_once (h : r.Balanced held) (k : EntryKind) (n : Nat) : r.times k.closing n ≤ 1 := by
  have hopened := h.opened_once k n
  have hbalance := h.balance k n
  omega

/-- A handle is open exactly if somebody has it. -/
theorem open_iff (h : r.Balanced held) (k : EntryKind) (n : Nat) :
    r.times k.opening n = 1 ∧ r.times k.closing n = 0 ↔ (k, n) ∈ held := by
  have hopened := h.opened_once k n
  have hbalance := h.balance k n
  rw [← List.count_pos_iff]
  omega

theorem perm (h : r.Balanced held) (hp : held.Perm held') : r.Balanced held' where
  issued := h.issued
  once := h.once
  balance k n := by rw [h.balance k n, hp.count_eq]

theorem behind (h : r.Balanced held) (s : σ) : ({ r with store := s } : Recorded σ).Balanced held :=
  ⟨h.issued, h.once, h.balance⟩

/-- A number that was not given out stands nowhere. -/
theorem times_fresh (h : r.Balanced held) (c : StoreCall) : r.times c r.issued = 0 := by
  refine List.count_eq_zero_of_not_mem fun hmem => ?_
  exact Nat.lt_irrefl _ (h.issued _ hmem _ rfl)

theorem lt_issued (h : r.Balanced held) (hn : (k, n) ∈ held) : n < r.issued := by
  have hopened : r.times k.opening n = 1 := ((h.open_iff k n).mpr hn).1
  have hmem : ⟨k.opening, some n⟩ ∈ r.calls := by
    refine List.count_pos_iff.mp ?_
    show 0 < r.times k.opening n
    omega
  exact h.issued _ hmem n rfl

theorem issued_note (h : r.Balanced held) {handle : Option Nat} {m : Nat} (hm : r.issued ≤ m)
    (hn : ∀ n, handle = some n → n < m) (s : σ) :
    ∀ c' ∈ (r.note c handle s).calls, ∀ n, c'.handle = some n → n < m := by
  intro c' hc n hcn
  obtain rfl | hc := List.mem_cons.mp hc
  · exact hn n hcn
  · exact Nat.lt_of_lt_of_le (h.issued c' hc n hcn) hm

/-- A call that gives out no handle and takes none back. -/
theorem note (h : r.Balanced held) {handle : Option Nat} (s : σ)
    (hc : ∀ n, handle = some n → n < r.issued ∧ c.trades = false) :
    (r.note c handle s).Balanced held := by
  have hsame {c' : StoreCall} (hc' : c'.trades = true) (n : Nat) :
      (r.note c handle s).times c' n = r.times c' n := by
    refine times_of_not s ?_
    rintro rfl hn
    exact absurd hc' (Bool.eq_false_iff.mp (hc n hn).2)
  have hopening (k : EntryKind) := hsame k.trades.1
  have hclosing (k : EntryKind) := hsame k.trades.2
  constructor
  · exact h.issued_note (Nat.le_refl _) (fun n hn => (hc n hn).1) s
  · intro n
    have hfile := hopening .file n
    have hdir := hopening .dir n
    have honce := h.once n
    omega
  · intro k n
    rw [hopening, hclosing]
    exact h.balance k n

/-- A call that gives out a handle, which somebody has from then on. -/
theorem opened (h : r.Balanced held) (k : EntryKind) (s : σ) :
    ({ r.note k.opening (some r.issued) s with issued := r.issued + 1 } : Recorded σ).Balanced
      ((k, r.issued) :: held) := by
  have hclosing (k' : EntryKind) (n : Nat) :
      (r.note k.opening (some r.issued) s).times k'.closing n = r.times k'.closing n :=
    times_of_not s fun hk => absurd hk (k.opening_ne_closing k')
  have hopening (k' : EntryKind) (n : Nat) :
      (r.note k.opening (some r.issued) s).times k'.opening n =
        r.times k'.opening n + if k = k' ∧ r.issued = n then 1 else 0 := by
    rw [times_note]
    simp only [EntryKind.opening_inj, Option.some.injEq]
  constructor
  · exact h.issued_note (Nat.le_succ _) (by simp) s
  · intro n
    have honce := h.once n
    have hfile := hopening .file n
    have hdir := hopening .dir n
    show (r.note k.opening (some r.issued) s).times EntryKind.file.opening n +
      (r.note k.opening (some r.issued) s).times EntryKind.dir.opening n ≤ 1
    by_cases hn : r.issued = n
    · subst hn
      have hfile₀ := h.times_fresh EntryKind.file.opening
      have hdir₀ := h.times_fresh EntryKind.dir.opening
      cases k with
      | file =>
        rw [if_pos ⟨rfl, rfl⟩] at hfile
        rw [if_neg nofun] at hdir
        omega
      | dir =>
        rw [if_neg nofun] at hfile
        rw [if_pos ⟨rfl, rfl⟩] at hdir
        omega
    · rw [if_neg fun hk => hn hk.2] at hfile hdir
      omega
  · intro k' n
    have hbalance := h.balance k' n
    have hopening := hopening k' n
    have hclosing := hclosing k' n
    rw [count_open]
    show (r.note k.opening (some r.issued) s).times k'.opening n =
      (r.note k.opening (some r.issued) s).times k'.closing n + _
    omega

/-- A call that takes a handle back. -/
theorem closed (h : r.Balanced ((k, n) :: held)) (s : σ) :
    (r.note k.closing (some n) s).Balanced held := by
  have hn : n < r.issued := h.lt_issued List.mem_cons_self
  have hopening (k' : EntryKind) (m : Nat) :
      (r.note k.closing (some n) s).times k'.opening m = r.times k'.opening m :=
    times_of_not s fun hk => absurd hk.symm (k'.opening_ne_closing k)
  constructor
  · refine h.issued_note (Nat.le_refl _) (fun m hm => ?_) s
    obtain rfl := Option.some.inj hm
    exact hn
  · intro m
    have honce := h.once m
    have hfile := hopening .file m
    have hdir := hopening .dir m
    omega
  · intro k' m
    have hbalance := h.balance k' m
    rw [count_open] at hbalance
    rw [hopening, times_note]
    simp only [EntryKind.closing_inj, Option.some.injEq]
    omega

variable {t : Ticket η}

/-- A call that may give out a handle does so, or changes nothing in the accounts. -/
theorem issue (h : r.Balanced held) (k : EntryKind) (answer : σ → Except StorageError η × σ) :
    match r.issue k.opening answer with
    | (.ok t, r') => r'.Balanced ((k, t.number) :: held)
    | (.error _, r') => r'.Balanced held := by
  unfold Recorded.issue
  rcases answer r.store with ⟨_ | _, s⟩
  · exact h.note s nofun
  · exact h.opened k s

theorem redeem (h : r.Balanced ((k, t.number) :: held)) (answer : σ → η → α × σ) :
    (r.redeem k.closing t answer).2.Balanced held :=
  h.closed _

theorem call (h : r.Balanced held) (c : StoreCall) (answer : σ → α × σ) :
    (r.call c answer).2.Balanced held :=
  h.note _ nofun

theorem callOn (h : r.Balanced held) (ht : (k, t.number) ∈ held)
    (hc : c.trades = false) (answer : σ → η → α × η × σ) :
    (r.callOn c t answer).2.2.Balanced held := by
  refine h.note _ fun n hn => ⟨?_, hc⟩
  obtain rfl := Option.some.inj hn
  exact h.lt_issued ht

section

variable [FileStore σ φ δ]

theorem openFile (h : r.Balanced held) (path : Bytes) (flags : OpenFlags) :
    match FileStore.openFile r path flags with
    | (.ok f, r') => r'.Balanced ((.file, f.number) :: held)
    | (.error _, r') => r'.Balanced held :=
  h.issue .file (FileStore.openFile · path flags)

theorem openDir (h : r.Balanced held) (path : Bytes) :
    match FileStore.openDir r path with
    | (.ok dir, r') => r'.Balanced ((.dir, dir.number) :: held)
    | (.error _, r') => r'.Balanced held :=
  h.issue .dir (FileStore.openDir · path)

theorem closeFile {f : Ticket φ} (h : r.Balanced ((.file, f.number) :: held)) :
    (FileStore.closeFile r f).2.Balanced held :=
  h.redeem FileStore.closeFile

theorem closeDir {dir : Ticket δ} (h : r.Balanced ((.dir, dir.number) :: held)) :
    (FileStore.closeDir r dir).2.Balanced held :=
  h.redeem FileStore.closeDir

end

end Balanced

end Recorded

/-! ## Uploads -/

namespace Recorded.Balanced

variable [FileStore σ φ δ] {r : Recorded σ} {held : List Open}

theorem commit {t : Ticket φ × Recorded σ} (h : t.2.Balanced held)
    (ht : (.file, t.1.number) ∈ held) (data : Bytes) :
    (WriteSession.commit t data).2.2.Balanced held ∧
      (WriteSession.commit t data).2.1.number = t.1.number := by
  have hwrite : (FileStore.write t.2 t.1 data).2.2.Balanced held :=
    h.callOn ht (c := .write) rfl (FileStore.write · · data)
  have hnumber : (FileStore.write t.2 t.1 data).2.1.number = t.1.number := rfl
  unfold WriteSession.commit
  rcases hw : FileStore.write t.2 t.1 data with ⟨_ | n, f, r⟩
  · rw [hw] at hwrite hnumber
    exact ⟨hwrite, hnumber⟩
  · rw [hw] at hwrite hnumber
    dsimp only
    split <;> exact ⟨hwrite, hnumber⟩

variable {chunk : Nat} {w : WriteSession chunk (Ticket φ)}

theorem writeSession (h : r.Balanced held) (hw : (.file, w.file.number) ∈ held) (id : UInt32)
    (data : Bytes) (enforce : Bool) :
    (w.write r id data enforce).2.2.Balanced held ∧
      (w.write r id data enforce).2.1.file.number = w.file.number := by
  unfold WriteSession.write
  split
  · exact ⟨h, rfl⟩
  · refine ChunkBuffer.accept_induct
      (I := fun t : Ticket φ × Recorded σ => t.2.Balanced held ∧ t.1.number = w.file.number)
      (fun t data ht => ?_) data w.chunk (t := (w.file, r)) ⟨h, rfl⟩
    obtain ⟨hbalanced, hnumber⟩ := ht
    rw [← hnumber] at hw
    obtain ⟨hbalanced', hnumber'⟩ := hbalanced.commit hw data
    exact ⟨hbalanced', hnumber'.trans hnumber⟩

theorem closeSession (h : r.Balanced ((.file, w.file.number) :: held)) :
    (w.close r).2.Balanced held := by
  have hflush : (w.chunk.flush WriteSession.commit (w.file, r)).2.2.2.Balanced
      ((.file, (w.chunk.flush WriteSession.commit (w.file, r)).2.2.1.number) :: held) := by
    unfold ChunkBuffer.flush
    split
    · exact h
    · obtain ⟨hcommit, hnumber⟩ := commit (t := (w.file, r)) h List.mem_cons_self w.chunk.pending
      dsimp only at hnumber ⊢
      rwa [hnumber]
  have hclosed := hflush.closeFile
  unfold WriteSession.close
  dsimp only
  split <;> exact hclosed

end Recorded.Balanced

end PanelLink
