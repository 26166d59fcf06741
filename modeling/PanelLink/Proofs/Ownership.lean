import PanelLink.Proofs.Accounts
import PanelLink.Proofs.Orderly
import PanelLink.Store.Volume

/-!
Who has which handle. In the middle of a command it may have one in hand; all others that are open
are those of the animation and of the upload, and between two commands there are no more.
-/
namespace PanelLink

variable {size chunk : Nat} {σ φ δ ε α : Type}

def CommandHandle.tickets : CommandHandle (Ticket φ) (Ticket δ) → List Open
  | .none => []
  | .file f => [(.file, f.number)]
  | .dir h => [(.dir, h.number)]

def Device.tickets (d : Device size (Recorded σ) (Ticket φ)) : List Open :=
  match d.file with
  | none => []
  | some f => [(.file, f.number)]

theorem Device.mem_tickets {d : Device size (Recorded σ) (Ticket φ)} {k : EntryKind} {n : Nat} :
    (k, n) ∈ d.tickets ↔ k = .file ∧ ∃ f, d.file = some f ∧ f.number = n := by
  unfold tickets
  cases d.file with
  | none => simp
  | some f => simp [eq_comm]

def Endpoint.tickets (e : Endpoint chunk (Ticket φ)) : List Open :=
  match e.upload with
  | none => []
  | some w => [(.file, w.file.number)]

theorem Endpoint.mem_tickets {e : Endpoint chunk (Ticket φ)} {k : EntryKind} {n : Nat} :
    (k, n) ∈ e.tickets ↔ k = .file ∧ ∃ u, e.upload = some u ∧ u.file.number = n := by
  unfold tickets
  cases e.upload with
  | none => simp
  | some u => simp [eq_comm]

/-- The open handles are that of the animation and the others. -/
def Device.Accounts (d : Device size (Recorded σ) (Ticket φ)) (others : List Open) : Prop :=
  d.store.Balanced (d.tickets ++ others)

namespace Device.Accounts

variable {d : Device size (Recorded σ) (Ticket φ)} {e : Endpoint chunk (Ticket φ)} {r : Recorded σ}
  {u : WriteSession chunk (Ticket φ)}

/-- The upload has its handle open besides that of the animation. -/
theorem upload (h : d.Accounts e.tickets) (hu : e.upload = some u) :
    d.store.Balanced ((.file, u.file.number) :: d.tickets) := by
  have htickets : e.tickets = [(.file, u.file.number)] := by
    unfold Endpoint.tickets
    rw [hu]
  unfold Accounts at h
  rw [htickets] at h
  exact h.perm List.perm_append_comm

/-- Without an upload there is no more than the handle of the animation. -/
theorem without (he : e.upload = none) (h : r.Balanced d.tickets) :
    ({ d with store := r } : Device size (Recorded σ) (Ticket φ)).Accounts e.tickets := by
  have hnone : e.tickets = [] := by
    unfold Endpoint.tickets
    rw [he]
  show r.Balanced (d.tickets ++ e.tickets)
  rwa [hnone, List.append_nil]

theorem withUpload (he : e.upload = some u) (h : r.Balanced ((.file, u.file.number) :: d.tickets)) :
    ({ d with store := r } : Device size (Recorded σ) (Ticket φ)).Accounts e.tickets := by
  have htickets : e.tickets = [(.file, u.file.number)] := by
    unfold Endpoint.tickets
    rw [he]
  show r.Balanced (d.tickets ++ e.tickets)
  rw [htickets]
  exact h.perm (List.perm_append_singleton (.file, u.file.number) d.tickets).symm

end Device.Accounts

/-- The open handles are those of the command, of the animation and of the upload. -/
def Accounted (l : CommandHandle (Ticket φ) (Ticket δ)) :
    Assertion size chunk (Recorded σ) (Ticket φ) ε :=
  fun _ s d => d.store.Balanced (l.tickets ++ (d.tickets ++ s.endpoint.tickets))

/-- What is done to the store from outside is not recorded as a call. -/
def Aside.Behind : Aside (Recorded σ) → Prop
  | .alter change => ∀ r, ∃ s, change r = { r with store := s }
  | _ => True

def accounts (file : List Open) (others : List Open) :
    Custody (Recorded σ) (Ticket φ) (Ticket δ) where
  store r := r.Balanced (file ++ others)
  file _ f := file = [(.file, f.number)]
  dir _ _ := True

open Recorded Device Handler

section

variable [FileStore σ φ δ] {file others : List Open}

theorem accounts_reading :
    (accounts file others : Custody (Recorded σ) (Ticket φ) (Ticket δ)).Reading where
  read {r f} n hr hf := by
    have hmem : (EntryKind.file, f.number) ∈ file ++ others := by
      rw [show file = [(.file, f.number)] from hf]
      exact List.mem_cons_self
    have hread := hr.callOn hmem (c := .read) rfl (FileStore.read · · n)
    exact ⟨⟨hread, fun _ hf => hf, fun _ hd => hd⟩, hf⟩
  seek {r f} whence hr hf := by
    have hmem : (EntryKind.file, f.number) ∈ file ++ others := by
      rw [show file = [(.file, f.number)] from hf]
      exact List.mem_cons_self
    have hseek := hr.callOn hmem (c := .seek) rfl (FileStore.seek · · whence)
    exact ⟨⟨hseek, fun _ hf => hf, fun _ hd => hd⟩, hf⟩

variable {ok : Aside (Recorded σ) → Prop} {l : CommandHandle (Ticket φ) (Ticket δ)}
  {v d w : Device size (Recorded σ) (Ticket φ)} {s : Serving chunk (Ticket φ) ε}

omit [FileStore σ φ δ] in
theorem accounts_carries (hok : ∀ a, ok a → a.Behind) (change : Recorded σ → Recorded σ)
    (r : Recorded σ) (ha : ok (.alter change))
    (hr : (accounts file others : Custody (Recorded σ) (Ticket φ) (Ticket δ)).store r) :
    (accounts file others : Custody (Recorded σ) (Ticket φ) (Ticket δ)).Carries r (change r) := by
  obtain ⟨t, ht⟩ := hok _ ha r
  rw [ht]
  exact ⟨hr.behind t, fun _ hf => hf, fun _ hd => hd⟩

omit [FileStore σ φ δ] in
theorem Device.Accounts.under (h : d.Accounts others) :
    d.Under (accounts d.tickets others : Custody (Recorded σ) (Ticket φ) (Ticket δ)) := by
  refine ⟨h, fun f hf => ?_⟩
  show d.tickets = _
  unfold tickets
  rw [hf]

omit [FileStore σ φ δ] in
/-- Whatever opens and closes nothing keeps the accounts if the books are right. -/
theorem Device.Accounts.moves
    (hm : Moves (accounts d.tickets others : Custody (Recorded σ) (Ticket φ) (Ticket δ)) d w)
    (hf : w.file.isSome = d.file.isSome) : w.Accounts others := by
  have htickets : w.tickets = d.tickets := by
    cases hw : w.file with
    | none =>
      have hnone : d.file = none := by
        rw [hw] at hf
        simpa using hf.symm
      unfold tickets
      rw [hw, hnone]
    | some f =>
      have hsame : d.tickets = [(.file, f.number)] := hm.file f hw
      rw [hsame]
      unfold tickets
      rw [hw]
  unfold Accounts
  rw [htickets]
  exact hm.carries.store

theorem Device.Accounts.aside {a : Aside (Recorded σ)} (h : d.Accounts others) (ha : a.Behind) :
    (a.apply d).2.Accounts others := by
  have hmoves : Moves (accounts d.tickets others : Custody (Recorded σ) (Ticket φ) (Ticket δ)) d
      (a.apply d).2 := by
    refine accounts_reading.aside h.under ?_
    rintro change rfl
    exact accounts_carries (fun _ h => h) change d.store ha h
  exact .moves hmoves (d.aside_file a)

theorem Device.Accounts.resumes (hok : ∀ a, ok a → a.Behind) {p : Pause} (h : d.Accounts others)
    (hw : Resumes ok p d w) : w.Accounts others :=
  .moves (accounts_reading.resumes (accounts_carries hok) h.under hw) hw.file

/-- What goes on during a pause leaves everybody their handles. -/
theorem Accounted.resumes (hok : ∀ a, ok a → a.Behind) {p : Pause} (h : Accounted l v s d)
    (hw : Resumes ok p d w) (v' : Device size (Recorded σ) (Ticket φ)) : Accounted l v' s w := by
  have hothers : d.Accounts (l.tickets ++ s.endpoint.tickets) :=
    h.perm (List.perm_append_comm_assoc _ _ _)
  exact (hothers.resumes hok hw).perm (List.perm_append_comm_assoc _ _ _)

theorem accounted_plain (hok : ∀ a, ok a → a.Behind) :
    KeptByPlain (Resumes ok) anyhow (Accounted : CommandHandle (Ticket φ) (Ticket δ) →
      Assertion size chunk (Recorded σ) (Ticket φ) ε) where
  pause h _ := ⟨trivial, fun w hw => h.resumes hok hw w⟩
  outbox _ h := h
  held _ h := h
  cwd _ h := h
  clock _ h := h
  openFile {_ _ d} path h := by
    have hopen := h.openFile path .reading
    rcases ho : FileStore.openFile d.store path .reading with ⟨_ | f, t⟩ <;> rwa [ho] at hopen
  closeFile h := h.closeFile
  read n h := h.callOn List.mem_cons_self rfl (FileStore.read · · n)
  openDir {_ _ d} path h := by
    have hopen := h.openDir path
    rcases ho : FileStore.openDir d.store path with ⟨_ | dir, t⟩ <;> rwa [ho] at hopen
  readDir h := h.callOn List.mem_cons_self rfl FileStore.readDir
  closeDir h := h.closeDir
  create {_ _ d} path h := by
    have hopen := h.openFile path .creating
    rcases ho : FileStore.openFile d.store path .creating with ⟨_ | f, t⟩ <;> rwa [ho] at hopen
  mkdir path h := h.call .mkdir (FileStore.mkdir · path)
  usedBlocks h := h.call .usedBlocks FileStore.usedBlocks

/-! ## The screen -/

namespace Device.Accounts

theorem closeAnimation (h : d.Accounts others) : d.closeAnimation.Accounts others := by
  unfold Device.closeAnimation
  split
  · exact h
  · rename_i f hf
    have hopen : d.store.Balanced ((.file, f.number) :: others) := by
      unfold Accounts tickets at h
      rwa [hf] at h
    exact hopen.closeFile

theorem teardown (h : d.Accounts others) (wasPlaying : Bool) :
    (d.teardown wasPlaying).Accounts others := by
  unfold Device.teardown
  split <;> exact h.closeAnimation

theorem installFile {f : Ticket φ} {r : Recorded σ}
    (hopen : r.Balanced ((.file, f.number) :: (d.tickets ++ others))) :
    (({ d with store := r } : Device size (Recorded σ) (Ticket φ)).installFile f).Accounts
      others := by
  unfold Device.installFile
  dsimp only
  cases hf : d.file with
  | none =>
    have hnone : d.tickets = [] := by
      unfold tickets
      rw [hf]
    rw [hnone] at hopen
    exact hopen
  | some old =>
    have hold : d.tickets = [(.file, old.number)] := by
      unfold tickets
      rw [hf]
    rw [hold] at hopen
    have hswap : r.Balanced ((.file, old.number) :: (.file, f.number) :: others) :=
      hopen.perm (List.Perm.swap _ _ _)
    exact hswap.closeFile

theorem launch (h : d.Accounts others) (path : Bytes) :
    (Device.launch path d).2.Accounts others := by
  have hstat : (FileStore.stat d.store path).2.Balanced (d.tickets ++ others) :=
    h.call .stat (FileStore.stat · path)
  unfold Device.launch Device.callStore
  dsimp only
  rcases hs : FileStore.stat d.store path with ⟨_ | ⟨_ | _, length⟩, r⟩
  · rw [hs] at hstat
    exact hstat
  · rw [hs] at hstat
    dsimp only
    split
    · exact hstat
    have hopen := hstat.openFile path .reading
    rcases ho : FileStore.openFile r path .reading with ⟨_ | f, r'⟩
    · rw [ho] at hopen
      exact hopen
    · rw [ho] at hopen
      exact installFile hopen
  · rw [hs] at hstat
    exact hstat

/-- A still image is closed again, whatever came of it. -/
theorem showFile (h : d.Accounts others) (path : Bytes) :
    (Device.showFile path d).2.Accounts others := by
  have hopen := h.openFile path .reading
  unfold Device.showFile Device.callStore
  dsimp only
  rcases ho : FileStore.openFile d.store path .reading with ⟨_ | f, r⟩
  · rw [ho] at hopen
    exact hopen
  rw [ho] at hopen
  have hreading : (accounts [(.file, f.number)] (d.tickets ++ others) :
      Custody (Recorded σ) (Ticket φ) (Ticket δ)).Reading := accounts_reading
  obtain ⟨hgather, hnumber⟩ :=
    hreading.gather size size hopen (Eq.refl [(EntryKind.file, f.number)])
  have hread : (FileStore.readFull r f size).2.2.Balanced
      ((.file, (FileStore.readFull r f size).2.1.number) :: (d.tickets ++ others)) := by
    have hsame : [(EntryKind.file, f.number)] =
        [(EntryKind.file, (FileStore.readFull r f size).2.1.number)] := hnumber
    rw [← List.singleton_append, ← hsame]
    exact hgather.store
  have hclosed := hread.closeFile
  dsimp only
  split
  · exact hclosed
  · exact hclosed
  · split
    · exact hclosed
    · split
      · rename_i hp
        obtain ⟨frames, rfl⟩ := present_eq hp
        exact hclosed
      · rename_i hp
        obtain ⟨frames, rfl⟩ := present_eq hp
        exact hclosed

end Device.Accounts

theorem accounted_aloof (hok : ∀ a, ok a → a.Behind) :
    Aloof (Resumes ok) anyhow (Accounted : CommandHandle (Ticket φ) (Ticket δ) →
      Assertion size chunk (Recorded σ) (Ticket φ) ε) where
  toKeptByPlain := accounted_plain hok
  await h := ⟨trivial, fun w hw => h.resumes hok hw w⟩
  look {_ s d} h := by
    obtain hw | ⟨-, hw⟩ := d.arrived_eq .acknowledgement
    · show Accounted .none _ s (d.arrived .acknowledgement).2
      rwa [hw]
    · show Accounted .none _ s (d.arrived .acknowledgement).2
      rwa [hw]
  requestStop h := h
  teardown wasPlaying h := Device.Accounts.teardown h wasPlaying
  launch path h := Device.Accounts.launch h path
  showFile path h := Device.Accounts.showFile h path
  writeRaw {_ _ d} cursor pixels h := by
    obtain ⟨b, frames, hw⟩ := writeRaw_eq cursor pixels d
    rw [hw]
    exact h
  cursor _ h := h

variable {R T : Pause → Device size (Recorded σ) (Ticket φ) →
  Device size (Recorded σ) (Ticket φ) → Prop}

variable (size chunk σ φ δ ε) in
abbrev AllAccounted : Assertion size chunk (Recorded σ) (Ticket φ) ε :=
  Accounted (CommandHandle.none : CommandHandle (Ticket φ) (Ticket δ))

omit [FileStore σ φ δ] in
theorem accounted_call {f : Recorded σ → Except StorageError α × Recorded σ}
    (hf : ∀ r held, r.Balanced held → (f r).2.Balanced held) :
    Keeps R T (AllAccounted size chunk σ φ δ ε) (Handler.callStore f) :=
  Triple.call fun _ _ d h => hf d.store _ h

theorem accounted_rm (payload : Bytes) :
    Keeps R T (AllAccounted size chunk σ φ δ ε) (Handler.rm payload) := by
  refine .bind (.pathArgument (fun _ _ _ _ h _ => h) fun _ _ _ h => h) fun path => ?_
  exact .bind (accounted_call fun r _ h => h.call .remove (FileStore.remove · path)) fun _ => .skip

theorem accounted_openFile (payload : Bytes) :
    Keeps R T (AllAccounted size chunk σ φ δ ε) (Handler.openFile payload) := by
  intro v s d h
  rw [Conduct.on_run, on_openFile]
  split
  · exact h
  rename_i path _
  split
  · exact h
  rename_i hfree
  have hnone : s.endpoint.tickets = [] := by
    unfold Endpoint.tickets
    rw [Option.not_isSome_iff_eq_none.mp hfree]
  have hopen := h.openFile path .appending
  rcases ho : FileStore.openFile d.store path .appending with ⟨_ | f, r⟩
  · rw [ho] at hopen
    exact hopen
  · rw [ho, hnone, List.append_nil] at hopen
    exact Device.Accounts.withUpload rfl hopen

theorem accounted_writeFile (id : UInt32) (payload : Bytes) :
    Keeps R T (AllAccounted size chunk σ φ δ ε) (Handler.writeFile id payload) := by
  intro v s d h
  rw [Conduct.on_run, on_writeFile]
  split
  · exact h
  split
  · exact h
  rename_i u hu
  obtain ⟨hwrite, hnumber⟩ :=
    (Device.Accounts.upload h hu).writeSession List.mem_cons_self id payload
    s.endpoint.config.enforceSequence
  rw [← hnumber] at hwrite
  split
  · rename_i u' r hw
    rw [hw] at hwrite
    exact Device.Accounts.withUpload rfl hwrite
  · rename_i x u' r hw
    rw [hw] at hwrite
    split
    · exact Device.Accounts.without rfl hwrite.closeFile
    · exact Device.Accounts.withUpload rfl hwrite

private theorem accounted_closeFile :
    Keeps R T (AllAccounted size chunk σ φ δ ε) Handler.closeFile := by
  intro v s d h
  rw [Conduct.on_run, on_closeFile]
  split
  · exact h
  · rename_i u hu
    have hclosed := (Device.Accounts.upload h hu).closeSession
    cases (u.close d.store).1 with
    | error e => exact Device.Accounts.without rfl hclosed
    | ok => exact Device.Accounts.without rfl hclosed

private theorem accounted_wipe : Keeps R T (AllAccounted size chunk σ φ δ ε) Handler.wipe := by
  have habandon : Keeps R T (AllAccounted size chunk σ φ δ ε) abandonUpload := by
    intro v s d h
    rw [Conduct.on_run, on_abandonUpload]
    split
    · exact h
    · rename_i u hu
      exact Device.Accounts.without rfl (Device.Accounts.upload h hu).closeFile
  unfold Handler.wipe
  refine .bind habandon fun _ => ?_
  refine .bind (.modifyEndpoint (Q := fun _ => AllAccounted size chunk σ φ δ ε) fun _ _ _ h => h)
    fun _ => ?_
  refine .bind (accounted_call fun r _ h => h.call .format FileStore.format) fun _ => ?_
  exact .bind (accounted_call fun r _ h => h.call .mount FileStore.mount) fun _ => .skip

private theorem accounted_execute (hok : ∀ a, ok a → a.Behind) (p : Packet) :
    Keeps (Resumes ok) anyhow (AllAccounted size chunk σ φ δ ε) (Handler.execute p) := by
  have haloof : Aloof (Resumes ok) anyhow (Accounted : CommandHandle (Ticket φ) (Ticket δ) →
      Assertion size chunk (Recorded σ) (Ticket φ) ε) := accounted_aloof hok
  by_cases hp : p.command.aloof = true
  · exact haloof.execute p hp
  unfold Handler.execute
  cases hc : p.command with
  | rm => exact accounted_rm _
  | openFile => exact accounted_openFile _
  | writeFile => exact accounted_writeFile _ _
  | closeFile => exact accounted_closeFile
  | format =>
    unfold Handler.format
    exact .bind (.always haloof.stop) fun _ => accounted_wipe
  | _ => simp [Command.aloof, hc] at hp

/-- Whatever is asked for, and whatever fails, the accounts are right in the end. -/
theorem accounted_routine (hok : ∀ a, ok a → a.Behind) (r : Request ε)
    (e : Endpoint chunk (Ticket φ)) (h : d.Accounts e.tickets) :
    (r.routine e d).Meets (Resumes ok) anyhow (fun _ x w => w.Accounts x.2.tickets) d := by
  have haloof : Aloof (Resumes ok) anyhow (Accounted : CommandHandle (Ticket φ) (Ticket δ) →
      Assertion size chunk (Recorded σ) (Ticket φ) ε) := accounted_aloof hok
  cases r with
  | frame transport bytes =>
    rw [Request.routine_frame, Run.meets_bind]
    exact haloof.serve bytes (fun _ _ _ h => h) (fun p _ => accounted_execute hok p) d ⟨e, _⟩ d h
  | _ =>
    refine (haloof.routine (s := ⟨e, .empty .instant⟩) _ (by simp) h).imp fun v x w hw => ?_
    rw [hw.1]
    exact hw.2

end

namespace Scene

variable [FileStore σ φ δ]

/-- No handle leaks and none is closed twice. Between two commands the files that are open are those
of the upload and of the animation that plays, and no directory is open; whatever failed before,
each handle was closed once at most. -/
theorem no_handle_leaks (config : Config) (timing : Timing) (store : σ)
    {as : List (Action (Recorded σ) ε)} (has : ∀ a, .aside a ∈ as → a.Behind) :
    let s : Scene size chunk (Recorded σ) (Ticket φ) ε :=
      (initial config timing (.ofStore store)).after as
    let r := s.device.store
    ∀ e, s.hand = .free e →
      (∀ n, 0 < r.times .openFile n ∧ r.times .closeFile n = 0 ↔
        (∃ u, e.upload = some u ∧ u.file.number = n) ∨
        (s.device.playback.playing = true ∧ ∃ f, s.device.file = some f ∧ f.number = n)) ∧
      (∀ n, 0 < r.times .openDir n → 0 < r.times .closeDir n) ∧
      ∀ n, r.times .closeFile n ≤ 1 ∧ r.times .closeDir n ≤ 1 := by
  intro s r e he
  have hsound : s.Sound Aside.Behind (fun e d => d.Accounts e.tickets) (fun _ _ => anyhow)
      (fun _ _ _ x w => w.Accounts x.2.tickets) := by
    refine after_induct (fun a => ∀ x, a = .aside x → x.Behind) (fun s a ha hs => ?_)
      (fun a ha x hx => has x (hx ▸ ha)) (Balanced.ofStore store)
    exact sound_act hs a ha (fun x e d hx hd => hd.aside hx)
      (fun r e d hd => accounted_routine (fun _ h => h) r e hd) fun _ _ _ _ _ _ h => h
  have hbooks : r.Balanced (s.device.tickets ++ e.tickets) := hsound.ready he
  have hsettled : s.device.Settled := ((Orderly.initial config timing _).after as).free he
  have hmem (n : Nat) : (EntryKind.file, n) ∈ s.device.tickets ++ e.tickets ↔
      (∃ u, e.upload = some u ∧ u.file.number = n) ∨
      (s.device.playback.playing = true ∧ ∃ f, s.device.file = some f ∧ f.number = n) := by
    have hplaying (f : Ticket φ) (hf : s.device.file = some f) :
        s.device.playback.playing = true := by
      rw [hsettled.1, hsettled.2, hf]
      rfl
    rw [List.mem_append, mem_tickets, Endpoint.mem_tickets]
    constructor
    · rintro (⟨-, f, hf, hn⟩ | ⟨-, hu⟩)
      · exact .inr ⟨hplaying f hf, f, hf, hn⟩
      · exact .inl hu
    · rintro (hu | ⟨-, hf⟩)
      · exact .inr ⟨rfl, hu⟩
      · exact .inl ⟨rfl, hf⟩
  refine ⟨fun n => ?_, fun n hn => ?_, fun n =>
    ⟨hbooks.closed_once .file n, hbooks.closed_once .dir n⟩⟩
  · rw [← hmem n, ← hbooks.open_iff]
    have honce := hbooks.opened_once .file n
    simp only [EntryKind.opening, EntryKind.closing] at honce ⊢
    omega
  · have hnone : (EntryKind.dir, n) ∉ s.device.tickets ++ e.tickets := by
      rw [List.mem_append, mem_tickets, Endpoint.mem_tickets]
      simp
    have honce := hbooks.opened_once .dir n
    rw [← hbooks.open_iff] at hnone
    simp only [EntryKind.opening, EntryKind.closing] at honce hnone
    omega

/-- A listing and a file that cannot be read give their handles back; an animation and an upload
keep theirs. -/
theorem two_files_stay_open :
    let volume := (Volume.fresh 1 8).put [[97]] (.file [7, 8])
    let send (command : Command) (payload : Bytes) :
        Action (Recorded (Disturbed Mishap Volume)) Unit :=
      .request (.frame .instant (Packet.frame ⟨command, 0, payload⟩))
    let fault : Mishap := { fault := some ⟨.read, 0, .io⟩ }
    let as := [.request (.start [97]), send .openFile [98], send .ls [],
      .aside (.alter fun r => { r with store := { r.store with disturbance := fault } }),
      send .cat [97]]
    let s : Scene 1 2 (Recorded (Disturbed Mishap Volume)) (Ticket FileHandle) Unit :=
      (initial {} ⟨1, 1⟩ (.ofStore ⟨{}, volume⟩)).after as
    let r := s.device.store
    r.issued = 4 ∧ (∀ a, .aside a ∈ as → a.Behind) ∧
      (∀ n, 0 < r.times .openFile n ∧ r.times .closeFile n = 0 ↔ n = 1 ∨ n = 0) ∧
      (∀ n, 0 < r.times .openDir n → 0 < r.times .closeDir n) ∧
      ∀ n, r.times .closeFile n ≤ 1 ∧ r.times .closeDir n ≤ 1 := by
  intro volume send fault as s r
  have has : ∀ a, .aside a ∈ as → a.Behind := by
    intro a ha
    simp only [as, send, List.mem_cons, List.not_mem_nil, or_false, reduceCtorEq, false_or,
      Action.aside.injEq] at ha
    subst ha
    exact fun r => ⟨_, rfl⟩
  have hissued : r.issued = 4 := by decide +kernel
  have hplaying : s.device.playback.playing = true := by decide +kernel
  have hfile : s.device.file.map Ticket.number = some 0 := by decide +kernel
  have hupload : s.endpoint?.bind (fun e => e.upload.map (·.file.number)) = some 1 := by
    decide +kernel
  obtain ⟨e, he, hu⟩ := Option.bind_eq_some_iff.mp hupload
  obtain ⟨u, hu, hnumber⟩ := Option.map_eq_some_iff.mp hu
  obtain ⟨f, hf, hfnumber⟩ := Option.map_eq_some_iff.mp hfile
  have hleaks := no_handle_leaks {} ⟨1, 1⟩ (⟨{}, volume⟩ : Disturbed Mishap Volume) has e
    (hand_of_endpoint? he)
  obtain ⟨hopen, hrest⟩ := hleaks
  unfold s at hf hplaying
  refine ⟨hissued, has, ?_⟩
  unfold r s
  refine ⟨fun n => (hopen n).trans ?_, hrest⟩
  constructor
  · rintro (⟨u', hu', rfl⟩ | ⟨-, f', hf', rfl⟩)
    · obtain rfl := Option.some.inj (hu.symm.trans hu')
      exact .inl hnumber
    · obtain rfl := Option.some.inj (hf.symm.trans hf')
      exact .inr hfnumber
  · rintro (rfl | rfl)
    · exact .inl ⟨u, hu, hnumber⟩
    · exact .inr ⟨hplaying, f, hf, hfnumber⟩

end Scene

end PanelLink
