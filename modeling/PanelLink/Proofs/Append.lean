import PanelLink.Proofs.Ledger
import PanelLink.Upload.WriteSession

/-! What an upload adds to its file: whole chunks as they fill, the rest when it is closed, and no
more than a prefix when the store fails. -/
namespace PanelLink

/-! ## Writing at the end of a file -/

namespace Volume

private theorem written_end (contents data : Bytes) :
    written contents contents.length data = contents ++ data := by
  have hdrop : contents.drop (contents.length + data.length) = [] :=
    List.drop_eq_nil_of_le (by omega)
  simp [written, Bytes.overlay, Bytes.padTo, hdrop]

/-- An appending write adds all of the bytes or fails and adds none. -/
theorem write_append (v : Volume) {f : FileHandle} {contents : Bytes} (data : Bytes)
    (hf : f.flags.append = true) (hc : v.tree.get? f.key = some (.file contents)) :
    (v.write f data).2.1.key = f.key ∧ (v.write f data).2.1.flags = f.flags ∧
    ((∃ e, (v.write f data).1 = .error e ∧
        (v.write f data).2.2.tree.get? f.key = some (.file contents)) ∨
      ((v.write f data).1 = .ok data.length ∧
        (v.write f data).2.2.tree.get? f.key = some (.file (contents ++ data)))) := by
  have ht := (v.handleFailure_same f.generation).tree
  unfold write
  rcases hfail : v.handleFailure f.generation with ⟨_ | e, w⟩
  · obtain rfl := eq_of_handleFailure hfail
    dsimp only
    split
    · exact ⟨rfl, rfl, .inl ⟨_, rfl, hc⟩⟩
    rw [hc]
    dsimp only
    split
    · exact ⟨rfl, rfl, .inl ⟨_, rfl, hc⟩⟩
    · refine ⟨rfl, rfl, .inr ⟨rfl, ?_⟩⟩
      show (w.tree.insert f.key _).get? f.key = _
      rw [Tree.get?_insert, if_pos rfl, writtenBody_eq, Body.bytes_ofBytes, Body.length_ofBytes,
        written_end]
  · rw [hfail] at ht
    refine ⟨rfl, rfl, .inl ⟨e, rfl, ?_⟩⟩
    rwa [show w.tree = v.tree from ht]

end Volume

variable {σ φ δ : Type} [FileStore σ φ δ] [Backed σ φ δ]

/-- Through any store an appending write adds some of the bytes and says how many, or fails and adds
none. -/
theorem Backed.write_append {s : σ} {f : φ} {contents : Bytes} (data : Bytes)
    (hf : (file σ f).flags.append = true)
    (hc : node? s (file σ f).key = some (.file contents)) :
    (file σ (FileStore.write s f data).2.1).key = (file σ f).key ∧
    (file σ (FileStore.write s f data).2.1).flags = (file σ f).flags ∧
    ((∃ e, (FileStore.write s f data).1 = .error e ∧
        node? (FileStore.write s f data).2.2 (file σ f).key = some (.file contents)) ∨
      ∃ m ≤ data.length, (FileStore.write s f data).1 = .ok m ∧
        node? (FileStore.write s f data).2.2 (file σ f).key =
          some (.file (contents ++ data.take m))) := by
  obtain ⟨m, hm, hpass⟩ := Backed.write s f data
  obtain hpass | ⟨⟨e, he⟩, hh, hv⟩ := hpass
  · obtain ⟨hkey, hflags, hwrite⟩ := (volume s).write_append (data.take m) hf hc
    rw [← hpass] at hkey hflags hwrite
    refine ⟨hkey, hflags, ?_⟩
    obtain ⟨e, he, ht⟩ | ⟨hok, ht⟩ := hwrite
    · exact .inl ⟨e, he, ht⟩
    · refine .inr ⟨m, hm, ?_, ht⟩
      have hlength : (data.take m).length = m := List.length_take_of_le hm
      rw [← hlength]
      exact hok
  · refine ⟨by rw [hh], by rw [hh], .inl ⟨e, he, ?_⟩⟩
    rw [node?, hv]
    exact hc

/-! ## The file of an upload -/

/-- The handle with the number `n` is open for appending to the file at `k`, which holds
`contents`. -/
structure Appending (n : Nat) (k : Key) (contents : Bytes) (f : Ticket φ) (r : Recorded σ) :
    Prop where
  number : f.number = n
  key : (Backed.file σ f.handle).key = k
  append : (Backed.file σ f.handle).flags.append = true
  issued : n < r.issued
  unclosed : r.closes n = 0
  node : (Backed.volume r.store).tree.get? k = some (.file contents)

variable {n : Nat} {k : Key} {contents : Bytes} {f : Ticket φ} {r : Recorded σ}

namespace Appending

/-- What is committed is added as a whole, or the store fails and adds a prefix of it. -/
theorem commit {t : Ticket φ × Recorded σ} (h : Appending n k contents t.1 t.2) (data : Bytes) :
    ((WriteSession.commit t data).1 = .ok () ∧
      Appending n k (contents ++ data) (WriteSession.commit t data).2.1
        (WriteSession.commit t data).2.2) ∨
    ∃ e q, (WriteSession.commit t data).1 = .error e ∧ e.isStorage = true ∧ q <+: data ∧
      Appending n k (contents ++ q) (WriteSession.commit t data).2.1
        (WriteSession.commit t data).2.2 := by
  obtain ⟨f, r⟩ := t
  have hnode : Backed.node? r.store (Backed.file σ f.handle).key = some (.file contents) := by
    rw [h.key]
    exact h.node
  obtain ⟨hkey, hflags, hwrite⟩ := Backed.write_append data h.append hnode
  have hafter {c : Bytes} {f' : Ticket φ} {r' : Recorded σ}
      (hw : (FileStore.write r f data).2 = (f', r'))
      (hn : Backed.node? (FileStore.write r.store f.handle data).2.2 (Backed.file σ f.handle).key =
        some (.file c)) : Appending n k c f' r' := by
    obtain ⟨rfl, rfl⟩ := Prod.mk.inj hw
    refine ⟨h.number, hkey.trans h.key, (congrArg _ hflags).trans h.append, h.issued, ?_, ?_⟩
    · refine (Recorded.closes_note _ ?_).trans h.unclosed
      intro hc
      cases hc
    · rw [← h.key]
      exact hn
  unfold WriteSession.commit
  rcases hw : FileStore.write r f data with ⟨e | m, f', r'⟩
  · have he : (FileStore.write r.store f.handle data).1 = .error e := congrArg Prod.fst hw
    obtain ⟨-, -, hn⟩ | ⟨m, -, hm, -⟩ := hwrite
    · refine .inr ⟨_, [], rfl, rfl, List.nil_prefix, ?_⟩
      rw [List.append_nil]
      exact hafter (congrArg Prod.snd hw) hn
    · simp [he] at hm
  · have he : (FileStore.write r.store f.handle data).1 = .ok m := congrArg Prod.fst hw
    obtain ⟨e, hm, -⟩ | ⟨m', hle, hm, hn⟩ := hwrite
    · simp [he] at hm
    obtain rfl : m' = m := Except.ok.inj (hm.symm.trans he)
    have happend := hafter (congrArg Prod.snd hw) hn
    dsimp only
    split
    · rename_i hall
      rw [hall, List.take_length] at happend
      exact .inl ⟨rfl, happend⟩
    · exact .inr ⟨_, _, rfl, rfl, List.take_prefix _ _, happend⟩

/-- Taking bytes adds whole chunks and keeps the rest; when the store fails, a prefix of what was
to be added is there. The chunk in hand is never full. -/
theorem accept {chunk : Nat} (bytes : Bytes) {c : ChunkBuffer chunk} {t : Ticket φ × Recorded σ}
    (h : Appending n k contents t.1 t.2) (hc : c.pending.length < chunk) :
    ((c.accept WriteSession.commit bytes t).1 = .ok () ∧ ∃ q,
      q ++ (c.accept WriteSession.commit bytes t).2.1.pending = c.pending ++ bytes ∧
      chunk ∣ q.length ∧ (c.accept WriteSession.commit bytes t).2.1.pending.length < chunk ∧
      Appending n k (contents ++ q) (c.accept WriteSession.commit bytes t).2.2.1
        (c.accept WriteSession.commit bytes t).2.2.2) ∨
    ∃ e q, (c.accept WriteSession.commit bytes t).1 = .error e ∧ e.isStorage = true ∧
      q <+: c.pending ++ bytes ∧
      Appending n k (contents ++ q) (c.accept WriteSession.commit bytes t).2.2.1
        (c.accept WriteSession.commit bytes t).2.2.2 := by
  -- Byte by byte: as the chunk in hand is never full, one byte fills at most this chunk, and the
  -- rest goes on from an empty one with the file grown by it.
  induction bytes generalizing c t contents with
  | nil =>
    refine .inl ⟨rfl, [], ?_, Nat.dvd_zero _, hc, ?_⟩
    · exact (List.append_nil _).symm
    · rw [List.append_nil]
      exact h
  | cons b bs ih =>
    have hsplit : c.pending ++ b :: bs = c.pending ++ [b] ++ bs := List.append_cons _ _ _
    unfold ChunkBuffer.accept
    dsimp only
    split
    · rename_i hlt
      rw [hsplit]
      exact ih h hlt
    rename_i hfull
    have hlength : (c.pending ++ [b]).length = chunk := by
      simp only [List.length_append, List.length_singleton] at hfull ⊢
      omega
    obtain ⟨hok, h'⟩ | ⟨e, q, he, hstorage, hq, h'⟩ := h.commit (c.pending ++ [b])
    · rcases hcommit : WriteSession.commit t (c.pending ++ [b]) with ⟨_ | _, t'⟩
      · simp [hcommit] at hok
      rw [hcommit] at h'
      have hempty : (ChunkBuffer.empty : ChunkBuffer chunk).pending.length < chunk :=
        Nat.lt_of_le_of_lt (Nat.zero_le _) hc
      dsimp only
      obtain ⟨hall, q, hq, hdvd, hlt, h''⟩ | ⟨e, q, he, hstorage, hq, h''⟩ := ih h' hempty
      · refine .inl ⟨hall, c.pending ++ [b] ++ q, ?_, ?_, hlt, ?_⟩
        · rw [List.append_assoc, hq, hsplit]
          rfl
        · rw [List.length_append, hlength]
          exact (Nat.dvd_add_right (Nat.dvd_refl chunk)).mpr hdvd
        · rw [← List.append_assoc]
          exact h''
      · refine .inr ⟨e, c.pending ++ [b] ++ q, he, hstorage, ?_, ?_⟩
        · rw [hsplit]
          exact (List.prefix_append_right_inj _).mpr hq
        · rw [← List.append_assoc]
          exact h''
    · rcases hcommit : WriteSession.commit t (c.pending ++ [b]) with ⟨_ | _, t'⟩
      · rw [hcommit] at he h'
        obtain rfl := Except.error.inj he
        refine .inr ⟨_, q, rfl, hstorage, ?_, h'⟩
        rw [hsplit]
        exact hq.trans (List.prefix_append _ _)
      · simp [hcommit] at he

/-- When the handle is closed it is closed for the first time, and the file stays as it is. -/
theorem close (h : Appending n k contents f r) :
    (Recorded.watch n 1 (·.tree.get? k = some (.file contents)) :
      Custody (Recorded σ) (Ticket φ) (Ticket δ)).store (FileStore.closeFile r f).2 := by
  refine ⟨h.issued, ?_, ?_⟩
  · have hcount : (FileStore.closeFile r f).2.calls = ⟨.closeFile, some n⟩ :: r.calls := by
      rw [← h.number]
      rfl
    rw [Recorded.closes, hcount, List.count_cons_self]
    exact congrArg (· + 1) h.unclosed
  · have hspares := (Backed.closeFile r.store f.handle).keeps
      (Volume.Spares.of_tree (Volume.closeFile_same _ _).tree)
    exact hspares k contents h.node

end Appending

/-! ## The upload -/

/-- Whole chunks and an unfilled one, taken apart. -/
theorem chunks_eq {chunk : Nat} {stream committed pending : Bytes}
    (hsplit : committed ++ pending = stream) (hdvd : chunk ∣ committed.length)
    (hlt : pending.length < chunk) :
    committed = stream.take (chunk * (stream.length / chunk)) ∧
      pending = stream.drop (chunk * (stream.length / chunk)) := by
  obtain ⟨m, hm⟩ := hdvd
  have hlength : chunk * (stream.length / chunk) = committed.length := by
    have hpos : 0 < chunk := by omega
    rw [← hsplit, List.length_append, hm, Nat.mul_add_div hpos, Nat.div_eq_of_lt hlt, Nat.add_zero]
  rw [hlength, ← hsplit]
  exact ⟨(List.take_left' rfl).symm, (List.drop_left' rfl).symm⟩

/-- An upload to the file at `k`, which held `base`, has taken `stream`: the whole chunks are in the
file and the rest is pending. -/
def Streaming {chunk : Nat} (n : Nat) (k : Key) (base stream : Bytes)
    (w : WriteSession chunk (Ticket φ)) (r : Recorded σ) : Prop :=
  ∃ committed, committed ++ w.chunk.pending = stream ∧ chunk ∣ committed.length ∧
    w.chunk.pending.length < chunk ∧ Appending n k (base ++ committed) w.file r

namespace Streaming

variable {chunk : Nat} {base stream : Bytes} {w : WriteSession chunk (Ticket φ)}

/-- A packet is taken and its bytes follow the others; or it is out of sequence and nothing changes;
or the store fails, with a prefix of them all in the file. -/
theorem write (h : Streaming n k base stream w r) (id : UInt32) (data : Bytes) (enforce : Bool) :
    ((w.write r id data enforce).1 = .ok () ∧ Streaming n k base (stream ++ data)
      (w.write r id data enforce).2.1 (w.write r id data enforce).2.2) ∨
    (∃ e, (w.write r id data enforce).1 = .error e ∧ e.isStorage = false ∧
      (w.write r id data enforce).2 = (w, r)) ∨
    ∃ e q, (w.write r id data enforce).1 = .error e ∧ e.isStorage = true ∧ q <+: stream ++ data ∧
      Appending n k (base ++ q) (w.write r id data enforce).2.1.file
        (w.write r id data enforce).2.2 := by
  obtain ⟨committed, hsplit, hdvd, hlt, happend⟩ := h
  unfold WriteSession.write
  cases hs : w.sequenceFailure enforce id with
  | some e =>
    refine .inr (.inl ⟨e, rfl, ?_, rfl⟩)
    unfold WriteSession.sequenceFailure at hs
    split at hs
    · cases hs
    · split at hs
      · obtain rfl := Option.some.inj hs
        rfl
      · cases hs
  | none =>
    have haccept : Appending n k (base ++ committed) (w.file, r).1 (w.file, r).2 := happend
    obtain ⟨hok, q, hq, hdvd', hlt', h'⟩ | ⟨e, q, he, hstorage, hq, h'⟩ := haccept.accept data hlt
    · refine .inl ⟨hok, committed ++ q, ?_, ?_, hlt', ?_⟩
      · rw [List.append_assoc, hq, ← List.append_assoc, hsplit]
      · rw [List.length_append]
        exact (Nat.dvd_add_right hdvd).mpr hdvd'
      · rw [← List.append_assoc]
        exact h'
    · refine .inr (.inr ⟨e, committed ++ q, he, hstorage, ?_, ?_⟩)
      · rw [← hsplit, List.append_assoc]
        exact (List.prefix_append_right_inj _).mpr hq
      · rw [← List.append_assoc]
        exact h'

/-- Closing adds the rest; when the store fails, a prefix of all the bytes is there. The handle is
closed in any case. -/
theorem close (h : Streaming n k base stream w r) :
    ((w.close r).1 = .ok () ∧
      (Recorded.watch n 1 (·.tree.get? k = some (.file (base ++ stream))) :
        Custody (Recorded σ) (Ticket φ) (Ticket δ)).store (w.close r).2) ∨
    ∃ e q, (w.close r).1 = .error e ∧ e.isStorage = true ∧ q <+: stream ∧
      (Recorded.watch n 1 (·.tree.get? k = some (.file (base ++ q))) :
        Custody (Recorded σ) (Ticket φ) (Ticket δ)).store (w.close r).2 := by
  obtain ⟨committed, hsplit, -, -, happend⟩ := h
  have hstart : Appending n k (base ++ committed) (w.file, r).1 (w.file, r).2 := happend
  have hflush : ((w.chunk.flush WriteSession.commit (w.file, r)).1 = .ok () ∧
      Appending n k (base ++ stream) (w.chunk.flush WriteSession.commit (w.file, r)).2.2.1
        (w.chunk.flush WriteSession.commit (w.file, r)).2.2.2) ∨
      ∃ e q, (w.chunk.flush WriteSession.commit (w.file, r)).1 = .error e ∧
        e.isStorage = true ∧ q <+: stream ∧
        Appending n k (base ++ q) (w.chunk.flush WriteSession.commit (w.file, r)).2.2.1
          (w.chunk.flush WriteSession.commit (w.file, r)).2.2.2 := by
    unfold ChunkBuffer.flush
    split
    · rename_i hempty
      rw [hempty, List.append_nil] at hsplit
      subst hsplit
      exact .inl ⟨rfl, hstart⟩
    · obtain ⟨hok, h'⟩ | ⟨e, q, he, hstorage, hq, h'⟩ := hstart.commit w.chunk.pending
      · rw [List.append_assoc, hsplit] at h'
        exact .inl ⟨hok, h'⟩
      · refine .inr ⟨e, committed ++ q, he, hstorage, ?_, ?_⟩
        · rw [← hsplit]
          exact (List.prefix_append_right_inj _).mpr hq
        · rw [← List.append_assoc]
          exact h'
  unfold WriteSession.close
  dsimp only
  obtain ⟨hok, h'⟩ | ⟨e, q, he, hstorage, hq, h'⟩ := hflush
  · rw [hok]
    cases (FileStore.closeFile (w.chunk.flush WriteSession.commit (w.file, r)).2.2.2
      (w.chunk.flush WriteSession.commit (w.file, r)).2.2.1).1 with
    | ok => exact .inl ⟨rfl, h'.close⟩
    | error e => exact .inr ⟨_, stream, rfl, rfl, List.prefix_refl _, h'.close⟩
  · rw [he]
    exact .inr ⟨e, q, rfl, hstorage, hq, h'.close⟩

end Streaming

end PanelLink
