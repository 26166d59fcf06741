import PanelLink.Proofs.Append
import PanelLink.Proofs.Verdict

/-!
A whole upload, among all else that a host may ask for meanwhile. Until its handle is closed its
file holds what it held before and the whole chunks of the stream, and the rest waits.
-/
namespace PanelLink

open Recorded Device

variable {size chunk : Nat} {σ φ δ ε : Type} [FileStore σ φ δ] [Backed σ φ δ]

def wholeChunks (chunk : Nat) (stream : Bytes) : Bytes :=
  stream.take (chunk * (stream.length / chunk))

def unfilledChunk (chunk : Nat) (stream : Bytes) : Bytes :=
  stream.drop (chunk * (stream.length / chunk))

namespace Recorded

abbrev holding (n : Nat) (k : Key) (contents : Bytes) :
    Custody (Recorded σ) (Ticket φ) (Ticket δ) :=
  watch n 0 (·.tree.get? k = some (.file contents))

abbrev closedOnce (n : Nat) : Custody (Recorded σ) (Ticket φ) (Ticket δ) :=
  watch n 1 fun _ => True

abbrev missing (n : Nat) (k : Key) : Custody (Recorded σ) (Ticket φ) (Ticket δ) :=
  watch n 0 (·.tree.get? k = none)

end Recorded

/-- Between two commands the upload `n` goes on with `stream`, or it has ended and its handle was
closed once. -/
inductive GoesOrEnded (n : Nat) (k : Key) (base stream : Bytes) (e : Endpoint chunk (Ticket φ))
    (d : Device size (Recorded σ) (Ticket φ)) : Prop
  | goes (w : WriteSession chunk (Ticket φ)) : e.upload = some w →
      Streaming n k base stream w d.store → (∀ f, d.file = some f → f.number ≠ n) →
      GoesOrEnded n k base stream e d
  | ended : (closedOnce n).Uploading e.upload d.store → d.Under (closedOnce n) →
      GoesOrEnded n k base stream e d

/-- What the store shows of the upload at any time. -/
inductive Kept (chunk n : Nat) (k : Key) (base stream : Bytes)
    (d : Device size (Recorded σ) (Ticket φ)) : Prop
  | goes : d.Under (holding n k (base ++ wholeChunks chunk stream)) → Kept chunk n k base stream d
  | ended : d.Under (closedOnce n) → Kept chunk n k base stream d
  | missing : d.Under (missing n k) → Kept chunk n k base stream d

variable {n : Nat} {k : Key} {base stream : Bytes} {e : Endpoint chunk (Ticket φ)}
  {d w : Device size (Recorded σ) (Ticket φ)}

theorem Streaming.holds {u : WriteSession chunk (Ticket φ)} {r : Recorded σ}
    (h : Streaming n k base stream u r) :
    (Recorded.holding n k (base ++ wholeChunks chunk stream) :
      Custody (Recorded σ) (Ticket φ) (Ticket δ)).store r := by
  obtain ⟨committed, hsplit, hdvd, hlt, happend⟩ := h
  have hcommitted : committed = wholeChunks chunk stream := (chunks_eq hsplit hdvd hlt).1
  rw [← hcommitted]
  exact ⟨happend.issued, happend.unclosed, happend.node⟩

theorem Streaming.pending {u : WriteSession chunk (Ticket φ)} {r : Recorded σ}
    (h : Streaming n k base stream u r) : u.chunk.pending = unfilledChunk chunk stream := by
  obtain ⟨committed, hsplit, hdvd, hlt, -⟩ := h
  exact (chunks_eq hsplit hdvd hlt).2

theorem Streaming.number {u : WriteSession chunk (Ticket φ)} {r : Recorded σ}
    (h : Streaming n k base stream u r) : u.file.number = n := by
  obtain ⟨_, _, _, _, happend⟩ := h
  exact happend.number

theorem Streaming.appending {u : WriteSession chunk (Ticket φ)} {r : Recorded σ}
    (h : Streaming n k base stream u r) :
    Appending n k (base ++ wholeChunks chunk stream) u.file r := by
  obtain ⟨committed, hsplit, hdvd, hlt, happend⟩ := h
  rwa [← show committed = wholeChunks chunk stream from (chunks_eq hsplit hdvd hlt).1]

theorem Streaming.carry {u : WriteSession chunk (Ticket φ)} {r r' : Recorded σ}
    (h : Streaming n k base stream u r)
    (hr : (Recorded.holding n k (base ++ wholeChunks chunk stream) :
      Custody (Recorded σ) (Ticket φ) (Ticket δ)).store r') : Streaming n k base stream u r' := by
  obtain ⟨committed, hsplit, hdvd, hlt, happend⟩ := h
  have hcommitted : committed = wholeChunks chunk stream := (chunks_eq hsplit hdvd hlt).1
  obtain ⟨hissued, hunclosed, hnode⟩ := hr
  rw [← hcommitted] at hnode
  exact ⟨committed, hsplit, hdvd, hlt,
    ⟨happend.number, happend.key, happend.append, hissued, hunclosed, hnode⟩⟩

theorem GoesOrEnded.kept (h : GoesOrEnded n k base stream e d) : Kept chunk n k base stream d := by
  cases h with
  | goes u hu hs hf => exact .goes ⟨hs.holds, hf⟩
  | ended _ hd => exact .ended hd

/-! ## While others are at work -/

/-- What happens beside the commands changes neither the record of the calls nor the tree. -/
def Leaves (ok : Aside (Recorded σ) → Prop) : Prop :=
  ∀ change (r : Recorded σ), ok (.alter change) → (change r).issued = r.issued ∧
    (change r).calls = r.calls ∧
    (Backed.volume (change r).store).tree = (Backed.volume r.store).tree

variable {ok : Aside (Recorded σ) → Prop}

theorem Leaves.watch (hok : Leaves ok) {times : Nat} {N : Volume → Prop}
    (hN : ∀ v v', v'.tree = v.tree → N v → N v') (change : Recorded σ → Recorded σ)
    (r : Recorded σ) (ha : ok (.alter change))
    (hr : (Recorded.watch n times N : Custody (Recorded σ) (Ticket φ) (Ticket δ)).store r) :
    (Recorded.watch n times N : Custody (Recorded σ) (Ticket φ) (Ticket δ)).Carries r
      (change r) := by
  obtain ⟨hissued, hcalls, htree⟩ := hok change r ha
  obtain ⟨hlt, hcloses, hnode⟩ := hr
  refine ⟨⟨by rwa [hissued], ?_, hN _ _ htree hnode⟩, fun _ hf => hf, fun _ hh => hh⟩
  rw [closes, hcalls]
  exact hcloses

theorem get?_of_tree {node : Option Node} (v v' : Volume) (ht : v'.tree = v.tree)
    (h : v.tree.get? k = node) : v'.tree.get? k = node := by
  rwa [ht]

theorem Leaves.moves (hok : Leaves ok) {times : Nat} {N : Volume → Prop}
    (hN : ∀ v v', v'.tree = v.tree → N v → N v')
    (hd : d.Under (Recorded.watch n times N : Custody (Recorded σ) (Ticket φ) (Ticket δ)))
    {p : Pause} (hw : Resumes ok p d w) :
    Moves (Recorded.watch n times N : Custody (Recorded σ) (Ticket φ) (Ticket δ)) d w :=
  (watch_reading hN).resumes (hok.watch hN) hd hw

theorem Leaves.aside (hok : Leaves ok) {times : Nat} {N : Volume → Prop}
    (hN : ∀ v v', v'.tree = v.tree → N v → N v')
    (hd : d.Under (Recorded.watch n times N : Custody (Recorded σ) (Ticket φ) (Ticket δ)))
    {a : Aside (Recorded σ)} (ha : ok a) :
    Moves (Recorded.watch n times N : Custody (Recorded σ) (Ticket φ) (Ticket δ)) d
      (a.apply d).2 := by
  refine (watch_reading hN).aside hd ?_
  rintro change rfl
  exact hok.watch hN change d.store ha hd.store

theorem GoesOrEnded.move (h : GoesOrEnded n k base stream e d)
    (hgoes : d.Under (holding n k (base ++ wholeChunks chunk stream)) →
      w.Under (holding n k (base ++ wholeChunks chunk stream)))
    (hended : d.Under (closedOnce n) → w.Under (closedOnce n)) :
    GoesOrEnded n k base stream e w := by
  cases h with
  | goes u hu hs hf =>
    have hw := hgoes ⟨hs.holds, hf⟩
    exact .goes u hu (hs.carry hw.store) hw.file
  | ended hu hd => exact .ended hu (hended hd)

theorem GoesOrEnded.aside (hok : Leaves ok) (h : GoesOrEnded n k base stream e d)
    {a : Aside (Recorded σ)}
    (ha : ok a) : GoesOrEnded n k base stream e (a.apply d).2 :=
  h.move (fun hd => (hok.aside get?_of_tree hd ha).under)
    fun hd => (hok.aside (fun _ _ _ hN => hN) hd ha).under

theorem GoesOrEnded.resumes (hok : Leaves ok) (h : GoesOrEnded n k base stream e d) {p : Pause}
    (hw : Resumes ok p d w) : GoesOrEnded n k base stream e w :=
  h.move (fun hd => (hok.moves get?_of_tree hd hw).under)
    fun hd => (hok.moves (fun _ _ _ hN => hN) hd hw).under

theorem Kept.move (h : Kept chunk n k base stream d)
    (hgoes : d.Under (holding n k (base ++ wholeChunks chunk stream)) →
      w.Under (holding n k (base ++ wholeChunks chunk stream)))
    (hended : d.Under (closedOnce n) → w.Under (closedOnce n))
    (hmissing : d.Under (Recorded.missing n k) → w.Under (Recorded.missing n k)) :
    Kept chunk n k base stream w := by
  cases h with
  | goes hd => exact .goes (hgoes hd)
  | ended hd => exact .ended (hended hd)
  | missing hd => exact .missing (hmissing hd)

theorem Kept.aside (hok : Leaves ok) (h : Kept chunk n k base stream d) {a : Aside (Recorded σ)}
    (ha : ok a) : Kept chunk n k base stream (a.apply d).2 :=
  h.move (fun hd => (hok.aside get?_of_tree hd ha).under)
    (fun hd => (hok.aside (fun _ _ _ hN => hN) hd ha).under)
    fun hd => (hok.aside get?_of_tree hd ha).under

theorem Kept.look (h : Kept chunk n k base stream d) (p : Pause) :
    Kept chunk n k base stream (d.arrived p).2 :=
  h.move (fun hd => ((watch_reading get?_of_tree).look hd p).under)
    (fun hd => ((watch_reading fun _ _ _ hN => hN).look hd p).under)
    fun hd => ((watch_reading get?_of_tree).look hd p).under

/-! ## Requests -/

def Left (n : Nat) (k : Key) (base stream : Bytes) (e : Endpoint chunk (Ticket φ))
    (d : Device size (Recorded σ) (Ticket φ)) : Prop :=
  GoesOrEnded n k base stream e d ∨ d.Under (Recorded.missing n k)

theorem Left.kept (h : Left n k base stream e d) : Kept chunk n k base stream d := by
  obtain h | h := h
  · exact h.kept
  · exact .missing h

theorem Left.resumes (hok : Leaves ok) (h : Left n k base stream e d) {p : Pause}
    (hw : Resumes ok p d w) : Left n k base stream e w := by
  obtain h | h := h
  · exact .inl (h.resumes hok hw)
  · exact .inr (hok.moves get?_of_tree h hw).under

abbrev KeepsUpload (ok : Aside (Recorded σ) → Prop) (n : Nat) (k : Key) (base stream : Bytes)
    (d : Device size (Recorded σ) (Ticket φ))
    (run : Run (Device size (Recorded σ) (Ticket φ)) (Answer ε × Endpoint chunk (Ticket φ))) :
    Prop :=
  run.Meets (Resumes ok) (fun _ _ w => Kept chunk n k base stream w)
    (fun _ x w => Left n k base stream x.2 w) d

theorem Left.keepsUpload (hok : Leaves ok) {e' : Endpoint chunk (Ticket φ)}
    (h : Left n k base stream e' w) {p : Packet} {result : Except CommandError Reply}
    (hy : e.Yields d p result e' w) {bytes : Bytes} (hp : Packet.decode bytes = .ok p)
    (transport : Transport ε) :
    KeepsUpload ok n k base stream d ((Request.frame transport bytes).routine e d) :=
  hy.meets hp h h.kept fun _ hw => h.resumes hok hw

/-- After the end of an upload no request changes what is known of it. -/
theorem keepsUpload_ended (hok : Leaves ok) (hu : (closedOnce n).Uploading e.upload d.store)
    (hd : d.Under (closedOnce n)) (r : Request ε) :
    KeepsUpload ok n k base stream d (r.routine e d) := by
  have hmeets := watch_entire.routine (hok.watch fun _ _ _ hN => hN)
    (fun _ _ _ _ _ hw => hw) e r hu hd (T := fun _ _ w => w.Under (closedOnce n))
  refine (hmeets.imp fun _ x w h => ?_).mono fun _ _ w h => .ended h
  exact .inl (.ended h.1 h.2)

section

variable {u : WriteSession chunk (Ticket φ)}

theorem Streaming.aloof (_ : Streaming n k base stream u d.store) (hok : Leaves ok) :
    Aloof (Resumes ok) (fun _ _ w => Kept chunk n k base stream w)
      ((holding n k (base ++ wholeChunks chunk stream)).During (fun o _ => o = some u) :
        CommandHandle (Ticket φ) (Ticket δ) → Assertion size chunk (Recorded σ) (Ticket φ) ε) :=
  (watch_sparing fun _ _ hs hN => hs k _ hN).aloof (hok.watch get?_of_tree)
    (fun _ _ _ _ h => h) fun _ _ _ _ _ hd => .goes hd

theorem Streaming.left (hs : Streaming n k base stream u d.store)
    {l : CommandHandle (Ticket φ) (Ticket δ)}
    {v : Device size (Recorded σ) (Ticket φ)} {s : Serving chunk (Ticket φ) ε}
    (h : ((holding n k (base ++ wholeChunks chunk stream)).During (fun o _ => o = some u) l :
      Assertion size chunk (Recorded σ) (Ticket φ) ε) v s w) :
    Left n k base stream s.endpoint w :=
  .inl (.goes u h.1 (hs.carry h.2.1.store) h.2.1.file)

variable (hu : e.upload = some u) (hs : Streaming n k base stream u d.store)
  (hf : ∀ f, d.file = some f → f.number ≠ n)
include hu hs hf

theorem keepsUpload_request (hok : Leaves ok) (r : Request ε)
    (hr : ∀ transport bytes, r ≠ .frame transport bytes) :
    KeepsUpload ok n k base stream d (r.routine e d) := by
  have haloof : Aloof (Resumes ok) (fun _ _ w => Kept chunk n k base stream w)
      ((holding n k (base ++ wholeChunks chunk stream)).During (fun o _ => o = some u) :
        CommandHandle (Ticket φ) (Ticket δ) → Assertion size chunk (Recorded σ) (Ticket φ) ε) :=
    hs.aloof hok
  refine (haloof.routine (v := d) (s := ⟨e, .empty .instant⟩) r hr
    ⟨hu, ⟨hs.holds, hf⟩, trivial⟩).imp
    fun v x w h => ?_
  obtain ⟨hx, h⟩ := h
  rw [hx]
  exact hs.left h

theorem keepsUpload_aloof (hok : Leaves ok) (transport : Transport ε) {bytes : Bytes}
    (hp : ∀ p, Packet.decode bytes = .ok p → p.command.aloof = true) :
    KeepsUpload ok n k base stream d ((Request.frame transport bytes).routine e d) := by
  have haloof : Aloof (Resumes ok) (fun _ _ w => Kept chunk n k base stream w)
      ((holding n k (base ++ wholeChunks chunk stream)).During (fun o _ => o = some u) :
        CommandHandle (Ticket φ) (Ticket δ) → Assertion size chunk (Recorded σ) (Ticket φ) ε) :=
    hs.aloof hok
  rw [Request.routine_frame]
  unfold KeepsUpload
  rw [Run.meets_bind]
  refine (haloof.serve bytes (fun _ _ _ h => h) (fun p hd => haloof.execute p (hp p hd)) d ⟨e, _⟩ d
    ⟨hu, ⟨hs.holds, hf⟩, trivial⟩).imp fun v x w h => ?_
  exact hs.left h

/-- A removal takes the file away or leaves it as it is. -/
theorem keepsUpload_rm (hok : Leaves ok) (transport : Transport ε) {bytes : Bytes} {p : Packet}
    (hp : Packet.decode bytes = .ok p) (hc : p.command = .rm) :
    KeepsUpload ok n k base stream d ((Request.frame transport bytes).routine e d) := by
  obtain ⟨result, hy | ⟨path, -, hy⟩⟩ := yields_rm (e := e) (d := d) hc
  · exact Left.keepsUpload hok (.inl (.goes u hu hs hf)) hy hp transport
  refine Left.keepsUpload hok ?_ hy hp transport
  obtain hstore | hstore := watch_remove path hs.holds
  · exact .inl (.goes u hu (hs.carry hstore) hf)
  · exact .inr ⟨hstore, hf⟩

theorem keepsUpload_openFile (hok : Leaves ok) (transport : Transport ε) {bytes : Bytes}
    {p : Packet}
    (hp : Packet.decode bytes = .ok p) (hc : p.command = .openFile) :
    KeepsUpload ok n k base stream d ((Request.frame transport bytes).routine e d) := by
  obtain ⟨x, hy⟩ := yields_openFile_again (d := d) hc hu
  exact Left.keepsUpload hok (.inl (.goes u hu hs hf)) hy hp transport

theorem keepsUpload_closeFile (hok : Leaves ok) (transport : Transport ε) {bytes : Bytes}
    {p : Packet}
    (hp : Packet.decode bytes = .ok p) (hc : p.command = .closeFile) :
    KeepsUpload ok n k base stream d ((Request.frame transport bytes).routine e d) := by
  refine Left.keepsUpload hok ?_ (yields_closeFile hc hu) hp transport
  refine .inl (.ended (fun _ hn => nomatch hn) ⟨?_, hf⟩)
  obtain ⟨-, hstore⟩ | ⟨x, q, -, -, -, hstore⟩ := hs.close
  · exact ⟨hstore.1, hstore.2.1, trivial⟩
  · exact ⟨hstore.1, hstore.2.1, trivial⟩

/-- A write adds its bytes to the stream if it is carried out, and ends the upload if the store
fails. -/
theorem keepsUpload_writeFile (hok : Leaves ok) (transport : Transport ε) {bytes : Bytes}
    {p : Packet}
    (hp : Packet.decode bytes = .ok p) (hc : p.command = .writeFile) :
    KeepsUpload ok n k base (stream ++ (Request.frame transport bytes).taken e d) d
      ((Request.frame transport bytes).routine e d) := by
  by_cases hpayload : p.payload = []
  · have hy := yields_writeFile_nothing (e := e) (d := d) hc hpayload
    rw [hy.taken hp hc]
    refine Left.keepsUpload hok (.inl (.goes u hu ?_ hf)) hy hp transport
    exact (List.append_nil stream).symm ▸ hs
  obtain ⟨hok', hs'⟩ | ⟨x, hx, hstorage, hsame⟩ | ⟨x, q, hx, hstorage, -, happend⟩ :=
    hs.write p.id p.payload e.config.enforceSequence
  · have hy := yields_writeFile hc hpayload hu (Prod.ext hok' rfl)
    rw [hy.taken hp hc]
    refine Left.keepsUpload hok ?_ hy hp transport
    exact .inl (.goes _ rfl hs' hf)
  · have hy := yields_writeFile_refused hc hpayload hu hstorage (Prod.ext hx hsame)
    rw [hy.taken hp hc]
    refine Left.keepsUpload hok ?_ hy hp transport
    refine .inl (.goes u rfl ?_ hf)
    exact (List.append_nil stream).symm ▸ hs
  · have hy := yields_writeFile_failed hc hpayload hu hstorage (Prod.ext hx rfl)
    have hclose := happend.close
    refine Left.keepsUpload hok ?_ hy hp transport
    exact .inl (.ended (fun _ hn => nomatch hn) ⟨⟨hclose.1, hclose.2.1, trivial⟩, hf⟩)

private theorem keepsUpload_format (hok : Leaves ok) (transport : Transport ε) {bytes : Bytes}
    {p : Packet}
    (hp : Packet.decode bytes = .ok p) (hc : p.command = .format) :
    KeepsUpload ok n k base stream d ((Request.frame transport bytes).routine e d) := by
  have haloof : Aloof (Resumes ok) (fun _ _ w => Kept chunk n k base stream w)
      ((holding n k (base ++ wholeChunks chunk stream)).During (fun o _ => o = some u) :
        CommandHandle (Ticket φ) (Ticket δ) → Assertion size chunk (Recorded σ) (Ticket φ) ε) :=
    hs.aloof hok
  have hwipe : Handler.Triple (Resumes ok) (fun _ _ w => Kept chunk n k base stream w)
      ((holding n k (base ++ wholeChunks chunk stream)).During (fun o _ => o = some u) .none :
        Assertion size chunk (Recorded σ) (Ticket φ) ε) Handler.wipe
      (fun _ => (closedOnce n).During (closedOnce n).Uploading .none)
      ((closedOnce n).During (closedOnce n).Uploading .none) := by
    refine .bind (Q := fun _ => (closedOnce n).During (closedOnce n).Uploading .none) ?_
      fun _ => watch_entire.erase
    rintro v s w ⟨hupload, hw, -⟩
    have hclose := (hs.carry hw.store).appending.close
    rw [Conduct.on_run, Handler.on_abandonUpload, show s.endpoint.upload = some u from hupload]
    show (closedOnce n).Uploading none (FileStore.closeFile w.store u.file).2 ∧
      Under (closedOnce n) { w with store := (FileStore.closeFile w.store u.file).2 } ∧ True
    exact ⟨fun _ hn => (nomatch hn), ⟨⟨hclose.1, hclose.2.1, trivial⟩, hw.file⟩, trivial⟩
  have hsending : KeptBySending (Resumes ok) (fun _ _ w => Kept chunk n k base stream w)
      (fun _ s w => Left n k base stream s.endpoint w :
        Assertion size chunk (Recorded σ) (Ticket φ) ε) :=
    ⟨fun h _ => ⟨h.kept, fun w hw => h.resumes hok hw⟩, fun _ h => h⟩
  rw [Request.routine_frame]
  unfold KeepsUpload
  rw [Run.meets_bind]
  refine hsending.serve (P := (holding n k (base ++ wholeChunks chunk stream)).During
    (fun o _ => o = some u) .none) bytes (fun v s w h => hs.left h) (fun p' hd => ?_) d ⟨e, _⟩ d
    ⟨hu, ⟨hs.holds, hf⟩, trivial⟩
  obtain rfl := Except.ok.inj (hp.symm.trans hd)
  unfold Handler.execute
  rw [hc]
  refine .bind (.always haloof.stop) fun _ => ?_
  exact hwipe.weaken (fun _ _ _ h => h) (fun _ _ s w h => .inl (.ended h.1 h.2.1))
    fun _ s w h => .inl (.ended h.1 h.2.1)

end

/-- Every request keeps what the upload promises, and a write adds to it. -/
theorem GoesOrEnded.routine (hok : Leaves ok) (h : GoesOrEnded n k base stream e d)
    (r : Request ε) :
    KeepsUpload ok n k base (stream ++ r.taken e d) d (r.routine e d) := by
  cases h with
  | ended hu hd => exact keepsUpload_ended hok hu hd r
  | goes u hu hs hf =>
    -- A write is the only request that adds to the stream, so it comes first.
    by_cases hw : ∃ transport bytes p, r = .frame transport bytes ∧ Packet.decode bytes = .ok p ∧
        p.command = .writeFile
    · obtain ⟨transport, bytes, p, rfl, hp, hc⟩ := hw
      exact keepsUpload_writeFile hu hs hf hok transport hp hc
    have htaken : r.taken e d = [] := Request.taken_eq_nil fun transport bytes p hr hp hc =>
      hw ⟨transport, bytes, p, hr, hp, hc⟩
    rw [htaken, List.append_nil]
    cases r with
    | frame transport bytes =>
      cases hp : Packet.decode bytes with
      | error x =>
        refine keepsUpload_aloof hu hs hf hok transport fun p hp' => ?_
        simp [hp] at hp'
      | ok p =>
        by_cases haloof : p.command.aloof = true
        · refine keepsUpload_aloof hu hs hf hok transport fun p' hp' => ?_
          obtain rfl := Except.ok.inj (hp.symm.trans hp')
          exact haloof
        cases hc : p.command with
        | rm => exact keepsUpload_rm hu hs hf hok transport hp hc
        | openFile => exact keepsUpload_openFile hu hs hf hok transport hp hc
        | closeFile => exact keepsUpload_closeFile hu hs hf hok transport hp hc
        | format => exact keepsUpload_format hu hs hf hok transport hp hc
        | writeFile => exact absurd ⟨transport, bytes, p, rfl, hp, hc⟩ hw
        | _ => simp [Command.aloof, hc] at haloof
    | _ => exact keepsUpload_request hu hs hf hok _ (by simp)

end PanelLink
