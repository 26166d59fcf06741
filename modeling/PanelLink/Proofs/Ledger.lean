import PanelLink.Proofs.Contents
import PanelLink.Proofs.Custody

/-!
What the list of calls tells about a handle: a number that was not given out yet stands nowhere, and
one that was is closed only with its own handle.
-/
namespace PanelLink

/-! ## Calls that spare every file -/

namespace Volume

variable (v : Volume)

theorem mkdir_spares (path : Bytes) : v.Spares (v.mkdir path).2 := by
  unfold mkdir
  split
  · exact .of_tree rfl
  split
  · exact .of_tree rfl
  split
  · exact .of_tree rfl
  rename_i k _ hn
  have hnone : v.tree.get? k = none := by simpa using hn
  split
  · exact .of_tree rfl
  split
  · exact .of_tree rfl
  · exact .put hnone

/-- A removal takes the entry at its path out of the tree, or none. -/
theorem remove_tree (path : Bytes) :
    (v.remove path).2.tree = v.tree ∨
      ∃ k, key path = .ok k ∧ (v.remove path).2.tree = v.tree.erase k := by
  unfold remove
  split
  · exact .inl rfl
  split
  · exact .inl rfl
  rename_i k hk
  split
  · exact .inl rfl
  split
  · exact .inl rfl
  split
  · exact .inl rfl
  · exact .inr ⟨k, hk, rfl⟩

end Volume

variable {σ φ δ η : Type}

/-! ## What is known of a volume -/

section

variable [FileStore σ φ δ] [Backed σ φ δ] {N : Volume → Prop}

/-- A property of the volume behind a store, and nothing about handles. -/
def vault (N : Volume → Prop) : Custody σ φ δ where
  store s := N (Backed.volume s)
  file _ _ := True
  dir _ _ := True

theorem vault_carries {s s' : σ} (h : N (Backed.volume s')) :
    (vault N : Custody σ φ δ).Carries s s' :=
  ⟨h, fun _ hf => hf, fun _ hd => hd⟩

theorem vault_reading (hN : ∀ v v', v'.tree = v.tree → N v → N v') :
    (vault N : Custody σ φ δ).Reading where
  read n hs _ := ⟨vault_carries (hN _ _ (Backed.read_tree _ _ n).1 hs), trivial⟩
  seek whence hs _ := ⟨vault_carries (hN _ _ (Backed.seek_tree _ _ whence).1 hs), trivial⟩

theorem vault_sparing (hN : ∀ v v', v.Spares v' → N v → N v') :
    (vault N : Custody σ φ δ).Sparing where
  toReading := vault_reading fun v v' ht => hN v v' (.of_tree ht)
  openFile {s flags} path hflags hs := by
    have htruncate : (flags.truncate && flags.write) = false := by
      obtain rfl | rfl := hflags <;> rfl
    refine ⟨vault_carries (hN _ _ ?_ hs), fun _ _ => trivial⟩
    exact (Backed.openFile s path flags).keeps (Volume.openFile_spares _ path htruncate)
  closeFile {s f} hs _ := by
    refine vault_carries (hN _ _ ?_ hs)
    exact (Backed.closeFile s f).keeps (.of_tree (Volume.closeFile_same _ _).tree)
  stat {s} path hs := by
    refine vault_carries (hN _ _ ?_ hs)
    exact (Backed.stat s path).keeps (.of_tree (congrArg _ (Volume.stat_tree _ path)))
  openDir {s} path hs := by
    refine ⟨vault_carries (hN _ _ ?_ hs), fun _ _ => trivial⟩
    exact (Backed.openDir s path).keeps (.of_tree (congrArg _ (Volume.openDir_tree _ path)))
  readDir {s h} hs _ := by
    refine ⟨vault_carries (hN _ _ ?_ hs), trivial⟩
    exact (Backed.readDir s h).keeps (.of_tree (Volume.readDir_same _ _).tree)
  closeDir {s h} hs _ := by
    refine vault_carries (hN _ _ ?_ hs)
    exact (Backed.closeDir s h).keeps (.of_tree (Volume.closeDir_same _ _).tree)
  mkdir {s} path hs := by
    refine vault_carries (hN _ _ ?_ hs)
    exact (Backed.mkdir s path).keeps (Volume.mkdir_spares _ path)
  usedBlocks {s} hs := by
    refine vault_carries (hN _ _ ?_ hs)
    exact (Backed.usedBlocks s).keeps (.of_tree (congrArg _ (Volume.usedBlocks_tree _)))

end

namespace Recorded

/-- How often a handle was given to the store to close. -/
def closes (r : Recorded σ) (n : Nat) : Nat :=
  r.calls.count ⟨.closeFile, some n⟩

/-! ## Numbers -/

/-- Every number in the record, and that of every handle, was given out. -/
def ledger : Custody (Recorded σ) (Ticket φ) (Ticket δ) where
  store r := ∀ c ∈ r.calls, ∀ n, c.handle = some n → n < r.issued
  file r f := f.number < r.issued
  dir r h := h.number < r.issued

private theorem ledger_note {r : Recorded σ} {c : StoreCall} {handle : Option Nat} {s : σ}
    (hr : (ledger : Custody (Recorded σ) (Ticket φ) (Ticket δ)).store r)
    (hn : ∀ n, handle = some n → n < r.issued) :
    (ledger : Custody (Recorded σ) (Ticket φ) (Ticket δ)).Carries r (r.note c handle s) where
  store := by
    intro c' hc n hcn
    obtain rfl | hc := List.mem_cons.mp hc
    · exact hn n hcn
    · exact hr c' hc n hcn
  file _ hf := hf
  dir _ hh := hh

private theorem ledger_issue {r : Recorded σ} (c : StoreCall)
    (answer : σ → Except StorageError η × σ)
    (hr : (ledger : Custody (Recorded σ) (Ticket φ) (Ticket δ)).store r) :
    (ledger : Custody (Recorded σ) (Ticket φ) (Ticket δ)).Carries r (r.issue c answer).2 ∧
      ∀ t, (r.issue c answer).1 = .ok t → t.number < (r.issue c answer).2.issued := by
  unfold issue
  rcases answer r.store with ⟨e | h, s⟩
  · exact ⟨ledger_note hr (by simp), by simp⟩
  · refine ⟨⟨?_, fun f hf => Nat.lt_succ_of_lt hf, fun d hd => Nat.lt_succ_of_lt hd⟩, ?_⟩
    · intro c' hc n hcn
      obtain rfl | hc := List.mem_cons.mp hc
      · obtain rfl := Option.some.inj hcn
        exact Nat.lt_succ_self _
      · exact Nat.lt_succ_of_lt (hr c' hc n hcn)
    · intro t ht
      obtain rfl := Except.ok.inj ht
      exact Nat.lt_succ_self _

theorem ledger_entire [FileStore σ φ δ] :
    (ledger : Custody (Recorded σ) (Ticket φ) (Ticket δ)).Entire where
  read n hr hf := ⟨ledger_note hr fun m hm => Option.some.inj hm ▸ hf, hf⟩
  seek whence hr hf := ⟨ledger_note hr fun m hm => Option.some.inj hm ▸ hf, hf⟩
  openFile path _ hr := ledger_issue _ _ hr
  closeFile hr hf := ledger_note hr fun m hm => Option.some.inj hm ▸ hf
  stat path hr := ledger_note hr (by simp)
  openDir path hr := ledger_issue _ _ hr
  readDir hr hh := ⟨ledger_note hr fun m hm => Option.some.inj hm ▸ hh, hh⟩
  closeDir hr hh := ledger_note hr fun m hm => Option.some.inj hm ▸ hh
  mkdir path hr := ledger_note hr (by simp)
  usedBlocks hr := ledger_note hr (by simp)
  openAppending path hr := ledger_issue _ _ hr
  write data hr hf := ⟨ledger_note hr fun m hm => Option.some.inj hm ▸ hf, hf⟩
  remove path hr := ledger_note hr (by simp)
  format hr := ledger_note hr (by simp)
  mount hr := ledger_note hr (by simp)

/-- What a file that was opened leaves in the books. -/
theorem openFile_ok [FileStore σ φ δ] {r t : Recorded σ} {f : Ticket φ} {path : Bytes}
    {flags : OpenFlags} (ho : FileStore.openFile r path flags = (.ok f, t)) :
    f.number = r.issued ∧ t.issued = r.issued + 1 ∧
      t.calls = ⟨.openFile, some r.issued⟩ :: r.calls ∧
      FileStore.openFile r.store path flags = (.ok f.handle, t.store) := by
  have hissue : r.issue .openFile (FileStore.openFile · path flags) = (.ok f, t) := ho
  unfold issue at hissue
  rcases hstore : FileStore.openFile r.store path flags with ⟨x | g, s'⟩
  · simp [hstore] at hissue
  · simp only [hstore, Prod.mk.injEq, Except.ok.injEq] at hissue
    obtain ⟨rfl, rfl⟩ := hissue
    exact ⟨rfl, rfl, rfl, rfl⟩

/-- A number that was not given out is closed by nobody. -/
theorem closes_eq_zero {r : Recorded σ} {n : Nat}
    (hr : (ledger : Custody (Recorded σ) (Ticket φ) (Ticket δ)).store r) (hn : r.issued ≤ n) :
    r.closes n = 0 := by
  refine List.count_eq_zero_of_not_mem fun hmem => ?_
  have hlt := hr _ hmem n rfl
  omega

/-! ## One handle -/

variable [FileStore σ φ δ] [Backed σ φ δ]

/-- The handle `n` was given out, and closed `times` times, and `N` holds of the volume. The handles
in custody are others. -/
def watch (n times : Nat) (N : Volume → Prop) : Custody (Recorded σ) (Ticket φ) (Ticket δ) where
  store r := n < r.issued ∧ r.closes n = times ∧ N (Backed.volume r.store)
  file _ f := f.number ≠ n
  dir _ h := h.number ≠ n

variable {n times : Nat} {N : Volume → Prop} {r : Recorded σ}

theorem closes_note {c : StoreCall} {handle : Option Nat} (s : σ)
    (h : c = .closeFile → handle ≠ some n) : (r.note c handle s).closes n = r.closes n := by
  refine List.count_cons_of_ne fun he => ?_
  obtain ⟨rfl, rfl⟩ := CallRecord.mk.inj he
  exact h rfl rfl

theorem watch_note {c : StoreCall} {handle : Option Nat} {s : σ}
    (hr : (watch n times N : Custody (Recorded σ) (Ticket φ) (Ticket δ)).store r)
    (h : c = .closeFile → handle ≠ some n)
    (hN : N (Backed.volume r.store) → N (Backed.volume s)) :
    (watch n times N : Custody (Recorded σ) (Ticket φ) (Ticket δ)).Carries r
      (r.note c handle s) where
  store := ⟨hr.1, (closes_note s h).trans hr.2.1, hN hr.2.2⟩
  file _ hf := hf
  dir _ hh := hh

theorem watch_issue {c : StoreCall} {answer : σ → Except StorageError η × σ}
    (hr : (watch n times N : Custody (Recorded σ) (Ticket φ) (Ticket δ)).store r)
    (hc : c ≠ .closeFile)
    (hN : N (Backed.volume r.store) → N (Backed.volume (answer r.store).2)) :
    (watch n times N : Custody (Recorded σ) (Ticket φ) (Ticket δ)).Carries r
        (r.issue c answer).2 ∧
      ∀ t, (r.issue c answer).1 = .ok t → t.number ≠ n := by
  unfold issue
  rcases ha : answer r.store with ⟨e | h, s⟩
  · rw [ha] at hN
    exact ⟨watch_note hr (fun h => absurd h hc) hN, by simp⟩
  · rw [ha] at hN
    obtain ⟨hissued, hcloses, hnode⟩ := hr
    refine ⟨⟨⟨Nat.lt_succ_of_lt hissued, ?_, hN hnode⟩, fun _ hf => hf, fun _ hh => hh⟩, ?_⟩
    · rw [← hcloses]
      exact closes_note s fun h => absurd h hc
    · intro t ht
      obtain rfl := Except.ok.inj ht
      exact Nat.ne_of_gt hissued

theorem watch_reading (hN : ∀ v v', v'.tree = v.tree → N v → N v') :
    (watch n times N : Custody (Recorded σ) (Ticket φ) (Ticket δ)).Reading where
  read {_ f} m hr hf := by
    have hread := (vault_reading hN).read (f := f.handle) m hr.2.2 trivial
    exact ⟨watch_note hr nofun fun _ => hread.1.store, hf⟩
  seek {_ f} whence hr hf := by
    have hseek := (vault_reading hN).seek (f := f.handle) whence hr.2.2 trivial
    exact ⟨watch_note hr nofun fun _ => hseek.1.store, hf⟩

theorem closing {f : Ticket φ} (hf : f.number ≠ n) : StoreCall.closeFile = .closeFile →
    some f.number ≠ some n :=
  fun _ h => hf (Option.some.inj h)

theorem watch_sparing (hN : ∀ v v', v.Spares v' → N v → N v') :
    (watch n times N : Custody (Recorded σ) (Ticket φ) (Ticket δ)).Sparing where
  toReading := watch_reading fun v v' ht => hN v v' (.of_tree ht)
  openFile path hflags hr :=
    watch_issue hr nofun fun h => ((vault_sparing hN).openFile path hflags h).1.store
  closeFile {_ f} hr hf :=
    watch_note hr (closing hf) fun h =>
      ((vault_sparing hN).closeFile (f := f.handle) h trivial).store
  stat path hr := watch_note hr nofun fun h => ((vault_sparing hN).stat path h).store
  openDir path hr := watch_issue hr nofun fun h => ((vault_sparing hN).openDir path h).1.store
  readDir {_ h} hr hh :=
    ⟨watch_note hr nofun fun hs =>
      ((vault_sparing hN).readDir (h := h.handle) hs trivial).1.store, hh⟩
  closeDir {_ h} hr _ :=
    watch_note hr nofun fun hs => ((vault_sparing hN).closeDir (h := h.handle) hs trivial).store
  mkdir path hr := watch_note hr nofun fun h => ((vault_sparing hN).mkdir path h).store
  usedBlocks hr := watch_note hr nofun fun h => ((vault_sparing hN).usedBlocks h).store

/-- A removal takes the file away or leaves it as it is. -/
theorem watch_remove {k : Key} {contents : Bytes} (path : Bytes)
    (hr : (watch n times (·.tree.get? k = some (.file contents)) :
      Custody (Recorded σ) (Ticket φ) (Ticket δ)).store r) :
    (watch n times (·.tree.get? k = some (.file contents)) :
      Custody (Recorded σ) (Ticket φ) (Ticket δ)).store (FileStore.remove r path).2 ∨
    (watch n times (·.tree.get? k = none) :
      Custody (Recorded σ) (Ticket φ) (Ticket δ)).store (FileStore.remove r path).2 := by
  obtain ⟨hissued, hcloses, hnode⟩ := hr
  have hcloses' : (FileStore.remove r path).2.closes n = times := by
    refine (closes_note _ ?_).trans hcloses
    intro hc
    cases hc
  have hcases : (Backed.volume (FileStore.remove r path).2.store).tree.get? k =
      some (.file contents) ∨
        (Backed.volume (FileStore.remove r path).2.store).tree.get? k = none := by
    have hpass := Backed.remove r.store path
    show (Backed.volume (FileStore.remove r.store path).2).tree.get? k = _ ∨
      (Backed.volume (FileStore.remove r.store path).2).tree.get? k = _
    generalize FileStore.remove r.store path = out at hpass ⊢
    obtain h | ⟨-, hv⟩ := hpass
    · have hv : Backed.volume out.2 = ((Backed.volume r.store).remove path).2 := congrArg Prod.snd h
      rw [hv]
      obtain ht | ⟨key, -, ht⟩ := (Backed.volume r.store).remove_tree path
      · rw [ht]
        exact .inl hnode
      · rw [ht, Tree.get?_erase]
        split
        · exact .inr rfl
        · exact .inl hnode
    · rw [hv]
      exact .inl hnode
  obtain hkept | hgone := hcases
  · exact .inl ⟨hissued, hcloses', hkept⟩
  · exact .inr ⟨hissued, hcloses', hgone⟩

/-- A handle that is closed stays so, whatever becomes of the files. -/
theorem watch_entire :
    (watch n times fun _ => True : Custody (Recorded σ) (Ticket φ) (Ticket δ)).Entire where
  toSparing := watch_sparing fun _ _ _ h => h
  openAppending _ hr := watch_issue hr nofun fun h => h
  write _ hr hf := ⟨watch_note hr nofun fun h => h, hf⟩
  remove _ hr := watch_note hr nofun fun h => h
  format hr := watch_note hr nofun fun h => h
  mount hr := watch_note hr nofun fun h => h

end Recorded

end PanelLink
