import PanelLink.Proofs.Atomicity
import PanelLink.Proofs.Listings
import PanelLink.Proofs.Reset
import PanelLink.Proofs.Resolution

/-!
The directory that the host stands in. It gets there by a command to enter it, which finds that it
is there, and back to the root by a format. Its path is short, and in normal form where paths are
resolved behind it.
-/
namespace PanelLink

open Device Handler

variable {size chunk : Nat} {σ φ δ ι ε : Type}

/-! ## Directories of a volume -/

structure Volume.HasDir (v : Volume) (path : Bytes) : Prop where
  mounted : v.mounted = true
  node : ∃ k, Volume.key path = .ok k ∧ v.tree.get? k = some .dir

theorem Volume.hasDir_of_openDir {v w : Volume} {path : Bytes} {dir : DirHandle}
    (h : v.openDir path = (.ok dir, w)) : v.HasDir path := by
  unfold openDir mountFailure at h
  split at h
  · cases h
  · rename_i hmounted
    have hm : v.mounted = true := by
      by_contra hm
      rw [if_neg hm] at hmounted
      cases hmounted
    split at h
    · cases h
    · rename_i k hk
      split at h
      · cases h
      · cases h
      · rename_i hdir
        exact ⟨hm, k, hk, hdir⟩

/-- Only a directory can be opened as one. -/
theorem Backed.hasDir_of_openDir [FileStore σ φ δ] [Backed σ φ δ] {s t : σ} {path : Bytes} {dir : δ}
    (h : FileStore.openDir s path = (.ok dir, t)) : (Backed.volume s).HasDir path := by
  have hpass := Backed.openDir s path
  rw [h] at hpass
  exact Volume.hasDir_of_openDir hpass.ok

/-! ## What a request does to the working directory -/

def Request.Brings (r : Request ε) (p : Packet) : Prop :=
  ∃ transport bytes, r = .frame transport bytes ∧ Packet.decode bytes = .ok p

theorem Request.brings_frame {transport : Transport ε} {bytes : Bytes} {p q : Packet}
    (hp : Packet.decode bytes = .ok p) : (frame transport bytes).Brings q ↔ q = p := by
  constructor
  · rintro ⟨_, _, hr, hq⟩
    obtain ⟨-, rfl⟩ := frame.inj hr
    exact Except.ok.inj (hq.symm.trans hp)
  · rintro rfl
    exact ⟨transport, bytes, rfl, hp⟩

section

variable [FileStore σ φ δ]

/-- Where a request leaves the host, by its answer. -/
inductive Request.Moves [Backed σ φ δ] (r : Request ε) (e : Endpoint chunk φ) (d : Device size σ φ)
    (x : Answer ε × Endpoint chunk φ) : Prop
  /-- Other commands leave it where it is. -/
  | stays (hother : ∀ p, r.Brings p → p.command ≠ .cd ∧ p.command ≠ .format)
      (hcwd : x.2.cwd = e.cwd)
  /-- So does a directory that could not be entered, and the host is not told that it was. -/
  | fails (p : Packet) (hp : r.Brings p) (hc : p.command = .cd) (hcwd : x.2.cwd = e.cwd)
      (htold : ∀ replies, x.1 ≠ .served (.ok .success) replies)
  /-- A directory that is entered is the one that was named, and it is there. The host is told of
  success, unless the transport refuses to tell it. -/
  | enters (p : Packet) (hp : r.Brings p) (hc : p.command = .cd)
      (htarget : e.directoryOf p.payload = .ok x.2.cwd)
      (hdir : (Backed.volume d.store).HasDir x.2.cwd)
      (htold : ∃ answer replies, x.1 = .served answer replies ∧
        (answer = .ok .success ∨ ∃ c, answer = .error c))
  /-- A format takes it to the root, whether it succeeds or not. -/
  | wipes (p : Packet) (hp : r.Brings p) (hc : p.command = .format) (hcwd : x.2.cwd = rootDirectory)

namespace Handler

variable {R : Pause → Device size σ φ → Device size σ φ → Prop} {c : Bytes}

def StandsIn (c : Bytes) : Assertion size chunk σ φ ε :=
  fun _ s _ => s.endpoint.cwd = c

theorem standsIn_reading :
    KeptByReading R anyhow
      (fun _ => StandsIn c : CommandHandle φ δ → Assertion size chunk σ φ ε) where
  pause h _ := ⟨trivial, fun _ _ => h⟩
  outbox _ h := h
  held _ h := h
  openFile _ h := by split <;> exact h
  closeFile h := h
  read _ h := h
  openDir _ h := by split <;> exact h
  readDir h := h
  closeDir h := h
  usedBlocks h := h

theorem standsIn_showing : Showing R anyhow (StandsIn c : Assertion size chunk σ φ ε) where
  await h := ⟨trivial, fun _ _ => h⟩
  look h := h
  requestStop h := h
  teardown _ h := h
  launch _ h := h
  showFile _ h := h
  writeRaw _ _ h := h
  cursor _ h := h

/-- Two commands alone take the host elsewhere. -/
theorem execute_standsIn {p : Packet} (hcd : p.command ≠ .cd) (hformat : p.command ≠ .format) :
    Keeps R anyhow (StandsIn c) (execute p : Handler size chunk σ φ ε Reply) := by
  have hJ : KeptByReading R anyhow
      (fun _ => StandsIn c : CommandHandle φ δ → Assertion size chunk σ φ ε) :=
    standsIn_reading
  have hcall {α : Type} (f : σ → Except StorageError α × σ) :
      Keeps R anyhow (StandsIn c) (callStore f : Handler size chunk σ φ ε α) :=
    .call fun _ _ _ h => h
  have hpath : Keeps R anyhow (StandsIn c)
      (pathArgument p.payload : Handler size chunk σ φ ε Bytes) := hJ.path p.payload
  unfold execute
  cases hc : p.command with
  | ls => exact hJ.ls
  | cat => exact hJ.cat p.payload
  | pwd => exact hJ.pwd
  | flashRemaining => exact hJ.flashRemaining
  | chooseImage => exact standsIn_showing.chooseImage p.payload
  | writeDisplay => exact standsIn_showing.writeDisplay p.payload
  | rm => exact .bind hpath fun _ => .bind (hcall _) fun _ => .skip
  | mkdir => exact .bind hpath fun _ => .bind (hcall _) fun _ => .skip
  | touch => exact .bind hpath fun _ => .bind (hcall _) fun _ => .bind (hcall _) fun _ => .skip
  | openFile =>
    intro v s d h
    rw [Conduct.on_run, on_openFile]
    split
    · exact h
    split
    · exact h
    split <;> exact h
  | writeFile =>
    intro v s d h
    rw [Conduct.on_run, on_writeFile]
    split
    · exact h
    split
    · exact h
    split
    · exact h
    split <;> exact h
  | closeFile =>
    intro v s d h
    rw [Conduct.on_run, on_closeFile]
    split
    · exact h
    · rename_i w _
      cases (w.close d.store).1 <;> exact h
  | setTime =>
    intro v s d h
    rw [Conduct.on_run, on_setTime]
    split
    · split <;> exact h
    · exact h
  | cd => exact absurd hc hcd
  | format => exact absurd hc hformat

end Handler

variable [Backed σ φ δ] {R : Pause → Device size σ φ → Device size σ φ → Prop}

/-- A command to enter a directory looks whether it is there, which changes nothing on the
volume. -/
theorem Endpoint.yields_cd {p : Packet} (hc : p.command = .cd) (e : Endpoint chunk φ)
    (d : Device size σ φ) : ∃ result c t,
      e.Yields d p result { e with cwd := c } { d with store := t } ∧
      (Backed.volume d.store).Same (Backed.volume t) ∧
      ((∃ x, result = .error x) ∧ c = e.cwd ∨
        result = .ok done ∧ e.directoryOf p.payload = .ok c ∧
          (Backed.volume d.store).HasDir c) := by
  cases htarget : e.directoryOf p.payload with
  | error x =>
    refine ⟨.error (.validation x), e.cwd, d.store, fun ε o => ?_, .refl _, .inl ⟨⟨_, rfl⟩, rfl⟩⟩
    simp only [execute, hc, on_cd, htarget]
  | ok c =>
    have hlooked := Backed.openDir_same d.store c
    rcases hopen : FileStore.openDir d.store c with ⟨x | dir, s⟩
    · rw [hopen] at hlooked
      refine ⟨.error (.storage x), e.cwd, s, fun ε o => ?_, hlooked, .inl ⟨⟨_, rfl⟩, rfl⟩⟩
      simp only [execute, hc, on_cd, htarget, on_enter, hopen]
    rw [hopen] at hlooked
    have hleft : (Backed.volume s).Same (Backed.volume (FileStore.closeDir s dir).2) :=
      (Backed.closeDir s dir).keeps ((Backed.volume s).closeDir_same (Backed.dir σ dir))
    rcases hclose : FileStore.closeDir s dir with ⟨x | _, t⟩
    · rw [hclose] at hleft
      refine ⟨.error (.storage x), e.cwd, t, fun ε o => ?_, hlooked.trans hleft,
        .inl ⟨⟨_, rfl⟩, rfl⟩⟩
      simp only [execute, hc, on_cd, htarget, on_enter, hopen, hclose]
    · rw [hclose] at hleft
      refine ⟨.ok done, c, t, fun ε o => ?_, hlooked.trans hleft,
        .inr ⟨rfl, rfl, Backed.hasDir_of_openDir hopen⟩⟩
      simp only [execute, hc, on_cd, htarget, on_enter, hopen, hclose]

namespace Request

private theorem cd_moves {transport : Transport ε} {bytes : Bytes} {p : Packet}
    (hp : Packet.decode bytes = .ok p) (hc : p.command = .cd) (e : Endpoint chunk φ)
    (v d : Device size σ φ) :
    ((frame transport bytes).routine e d).Meets R anyhow
      (fun _ x _ => (frame transport bytes).Moves e d x) v := by
  have hbrings : (frame transport bytes).Brings p := (brings_frame hp).mpr rfl
  obtain ⟨result, c, t, hyields, -, hcases⟩ := Endpoint.yields_cd hc e d
  obtain ⟨answer, replies, hanswer, hrun⟩ := hyields.routine_cases transport hp
  have hmoves :
      (frame transport bytes).Moves e d (.served answer replies, { e with cwd := c }) := by
    obtain ⟨⟨x, rfl⟩, rfl⟩ | ⟨rfl, htarget, hdir⟩ := hcases
    · refine .fails p hbrings hc rfl fun replies' htold => ?_
      obtain ⟨rfl, -⟩ := Answer.served.inj htold
      obtain hstatus | ⟨y, hy⟩ := hanswer
      · exact x.status_ne_success (Except.ok.inj hstatus).symm
      · cases hy
    · exact .enters p hbrings hc htarget hdir ⟨answer, replies, rfl, hanswer⟩
  obtain hrun | hrun := hrun
  · rw [hrun]
    exact hmoves
  · rw [hrun]
    exact ⟨trivial, fun _ _ => hmoves⟩

omit [Backed σ φ δ] in
/-- However a format ends, it has taken the host to the root. -/
theorem format_root {transport : Transport ε} {bytes : Bytes} {p : Packet}
    (hp : Packet.decode bytes = .ok p) (hc : p.command = .format) (e : Endpoint chunk φ)
    (v d : Device size σ φ) :
    ((frame transport bytes).routine e d).Meets R anyhow
      (fun _ x _ => x.2.cwd = rootDirectory) v := by
  have hexecute : (execute p : Handler size chunk σ φ ε Reply) = Handler.format := by
    unfold execute
    rw [hc]
  rw [routine_frame, Conduct.on_serve _ _ hp, hexecute, on_format, Run.bind_bind, Run.bind_bind,
    Run.meets_bind]
  refine Run.meets_of_forall (fun _ _ _ => trivial) (fun v _ w => ?_) v (Device.stop d)
  obtain ⟨x, s, hwipe, -⟩ := wipe_cases ⟨e, .empty transport⟩ w
  rw [hwipe, Run.done_bind, Run.meets_bind]
  refine (Conduct.conclude_meets (I := fun _ => True) (fun _ _ => trivial)
    fun _ _ _ _ => trivial).imp fun _ y _ hy => ?_
  show y.2.endpoint.cwd = rootDirectory
  rw [hy.1]
  rfl

theorem routine_moves (r : Request ε) (e : Endpoint chunk φ) (v d : Device size σ φ) :
    (r.routine e d).Meets R anyhow (fun _ x _ => r.Moves e d x) v := by
  by_cases hcd : ∃ p, r.Brings p ∧ p.command = .cd
  · obtain ⟨p, ⟨transport, bytes, rfl, hp⟩, hc⟩ := hcd
    exact cd_moves hp hc e v d
  by_cases hformat : ∃ p, r.Brings p ∧ p.command = .format
  · obtain ⟨p, ⟨transport, bytes, rfl, hp⟩, hc⟩ := hformat
    refine (format_root hp hc e v d).imp fun _ x _ hx => ?_
    exact .wipes p ((brings_frame hp).mpr rfl) hc hx
  have hother (p : Packet) (hp : r.Brings p) : p.command ≠ .cd ∧ p.command ≠ .format :=
    ⟨fun hc => hcd ⟨p, hp, hc⟩, fun hc => hformat ⟨p, hp, hc⟩⟩
  by_cases hframe : ∃ transport bytes, r = .frame transport bytes
  · obtain ⟨transport, bytes, rfl⟩ := hframe
    have hserve : Conduct.Triple R anyhow (StandsIn e.cwd) (Conduct.serve bytes)
        fun _ => (StandsIn e.cwd : Assertion size chunk σ φ ε) := by
      refine standsIn_reading.serve bytes (fun _ _ _ h => h) fun p hp => ?_
      obtain ⟨hcd, hformat⟩ := hother p ((brings_frame hp).mpr rfl)
      exact execute_standsIn hcd hformat
    rw [routine_frame, Run.meets_bind]
    exact (hserve v ⟨e, .empty transport⟩ d rfl).imp fun _ _ _ hx => .stays hother hx
  · have hquiet (transport) (bytes) : r ≠ .frame transport bytes :=
      fun hr => hframe ⟨transport, bytes, hr⟩
    have hJ : Showing R anyhow (StandsIn e.cwd : Assertion size chunk σ φ ε) := standsIn_showing
    have hstands : (StandsIn e.cwd : Assertion size chunk σ φ ε) v ⟨e, .empty .instant⟩ d := rfl
    refine (hJ.routine (fun _ _ _ h => h) r hquiet hstands).imp fun _ x _ hx => ?_
    exact .stays hother (congrArg Endpoint.cwd hx.1)

end Request

end

/-! ## What the working directory always is -/

namespace Path

variable {cwd p raw payload : Bytes} {limit : Nat}

theorem ne_nil_of_extract (h : extract payload limit = .ok raw) : raw ≠ [] := by
  unfold extract at h
  dsimp only at h
  split at h
  · cases h
  · rename_i hne
    split at h
    · cases h
    split at h
    · cases h
      exact hne
    · cases h

/-- Behind a working directory there is room for any path that comes in a packet. -/
theorem length_joined_le (hcwd : cwd.length < maxDirectory) (hp : p.length < maxLength) :
    (cwd ++ [slash] ++ p).length ≤ maxLength + maxDirectory + 1 := by
  simp only [List.length_append, List.length_singleton]
  omega

/-- With room enough a path is resolved as it stands behind the directory. -/
theorem resolve_of_room (h : (cwd ++ [slash] ++ p).length ≤ maxLength + maxDirectory + 1) :
    resolve cwd p = normalize (joined cwd p) := by
  unfold resolve joined
  split
  · rfl
  · dsimp only
    rw [if_neg (Nat.not_lt.mpr h)]

end Path

namespace Endpoint

variable {e e' : Endpoint chunk φ} {payload : Bytes}

/-- The working directory is short, and in normal form if paths are resolved behind it. -/
structure WellPlaced (e : Endpoint chunk φ) : Prop where
  named : e.cwd ≠ []
  short : e.cwd.length < Path.maxDirectory
  normal : e.config.paths = .relative →
    Path.isAbsolute e.cwd = true ∧ Path.normalize e.cwd = .ok e.cwd

/-- The root is well placed under any settings. -/
theorem wellPlaced_root (h : e.cwd = rootDirectory) : e.WellPlaced where
  named := by
    rw [h]
    exact List.cons_ne_nil _ _
  short := by
    rw [h]
    decide
  normal _ := by
    rw [h]
    decide

private theorem wellPlaced_of_directoryOf (h : e.directoryOf payload = .ok e'.cwd)
    (hconfig : e'.config = e.config) : e'.WellPlaced := by
  unfold directoryOf at h
  split at h
  · cases h
  rename_i raw hraw
  split at h
  · cases h
  rename_i target htarget
  split at h
  · cases h
  rename_i hlong
  obtain rfl := Except.ok.inj h
  have hnormal (hpaths : e.config.paths = .relative) :
      Path.isAbsolute e'.cwd = true ∧ Path.normalize e'.cwd = .ok e'.cwd := by
    rw [meaning, hpaths] at htarget
    exact Path.normal_of_normalize (Path.normalize_of_resolve htarget)
  refine ⟨?_, Nat.not_le.mp hlong, fun hpaths => hnormal (hconfig ▸ hpaths)⟩
  cases hpaths : e.config.paths with
  | literal =>
    rw [meaning, hpaths] at htarget
    rw [← Except.ok.inj htarget]
    exact Path.ne_nil_of_extract hraw
  | relative =>
    intro hnil
    have habsolute := (hnormal hpaths).1
    rw [hnil] at habsolute
    cases habsolute

/-- A request leaves the host in a well-placed directory. -/
theorem WellPlaced.moves [FileStore σ φ δ] [Backed σ φ δ] {r : Request ε} {d : Device size σ φ}
    {x : Answer ε × Endpoint chunk φ} (h : e.WellPlaced) (hmoves : r.Moves e d x)
    (hconfig : x.2.config = e.config) : x.2.WellPlaced := by
  have hsame (hcwd : x.2.cwd = e.cwd) : x.2.WellPlaced :=
    ⟨hcwd ▸ h.named, hcwd ▸ h.short, fun hpaths => hcwd ▸ h.normal (hconfig ▸ hpaths)⟩
  cases hmoves with
  | stays _ hcwd => exact hsame hcwd
  | fails _ _ _ hcwd => exact hsame hcwd
  | enters _ _ _ htarget => exact wellPlaced_of_directoryOf htarget hconfig
  | wipes _ _ _ hcwd => exact wellPlaced_root hcwd

end Endpoint

/-- Between two commands the host stands in a well-placed directory. -/
theorem Scene.wellPlaced [FileStore σ φ δ] [LawfulFileStore σ φ δ] [Backed σ φ δ] {config : Config}
    {timing : Timing} {store : σ} {as : List (Action σ ε)} {e : Endpoint chunk φ}
    (h : ((initial config timing store : Scene size chunk σ φ ε).after as).hand = .free e) :
    e.WellPlaced := by
  have hsound : ((initial config timing store : Scene size chunk σ φ ε).after as).Sound
      (fun _ => True) (fun e _ => e.WellPlaced) (fun _ _ => anyhow)
      (fun _ _ _ x _ => x.2.WellPlaced) := by
    refine after_induct (fun _ => True) (fun s a _ hs => ?_) (fun _ _ => trivial)
      (Endpoint.wellPlaced_root rfl)
    refine sound_act hs a (fun _ _ => trivial) (fun _ _ _ _ he => he) (fun r e d he => ?_)
      fun _ _ _ _ _ _ hx => hx
    have hmoves : (r.routine e d).Meets (Resumes fun _ => True) anyhow
        (fun _ x _ => r.Moves e d x) d := r.routine_moves e d d
    have hrun := hmoves.and (r.routine_settings e d d)
    exact (hrun.imp fun _ _ _ hx => he.moves hx.1 hx.2).mono fun _ _ _ _ => trivial
  exact hsound.ready h

/-! ## A listing of the directory that was entered -/

namespace Disturbed

def arranged (v : Volume) : Custody (Disturbed ι Volume) FileHandle DirHandle where
  store s := s.store.tree = v.tree ∧ s.store.mounted = v.mounted
  file _ _ := True
  dir _ _ := True

variable {v : Volume} {s t : Disturbed ι Volume}

private theorem arranged_carries (h : (arranged v).store t) : (arranged v).Carries s t :=
  ⟨h, fun _ _ => trivial, fun _ _ => trivial⟩

private theorem arranged_reading [Disturbance ι] :
    (arranged v : Custody (Disturbed ι Volume) _ _).Reading where
  read {s f} n hs _ := by
    obtain ⟨-, hv⟩ := s.read_same f n
    exact ⟨arranged_carries ⟨hv.tree.trans hs.1, hv.mounted.trans hs.2⟩, trivial⟩
  seek {s f} whence hs _ := by
    obtain ⟨-, hv⟩ := s.seek_same f whence
    exact ⟨arranged_carries ⟨hv.tree.trans hs.1, hv.mounted.trans hs.2⟩, trivial⟩

end Disturbed

variable [Disturbance ι]

/-- While the answer to a command to enter a directory is on its way the tree stays as it was. -/
theorem Request.cd_arranged {transport : Transport ε} {bytes : Bytes} {p : Packet}
    (hp : Packet.decode bytes = .ok p) (hc : p.command = .cd) (e : Endpoint chunk FileHandle)
    (d : Device size (Disturbed ι Volume) FileHandle) :
    ((frame transport bytes).routine e d).Meets (Resumes Aside.OnlyFaults) anyhow
      (fun _ _ w => w.Under (Disturbed.arranged d.store.store)) d := by
  obtain ⟨result, c, t, hyields, hsame, -⟩ := Endpoint.yields_cd hc e d
  have hunder : ({ d with store := t } : Device size (Disturbed ι Volume) FileHandle).Under
      (Disturbed.arranged d.store.store) :=
    ⟨⟨hsame.tree, hsame.mounted⟩, fun _ _ => trivial⟩
  refine hyields.meets (P := fun _ w => w.Under (Disturbed.arranged d.store.store)) hp hunder
    trivial fun w hw => ?_
  refine (Disturbed.arranged_reading.resumes (fun change s hchange hs => ?_) hunder hw).under
  obtain ⟨i, fault, heq⟩ := hchange s
  rw [heq]
  exact Disturbed.arranged_carries hs

/-- The replies tell the entries: all of them, kept whole where a reply can hold one, or as many as
one reply holds. -/
def ListingMode.Tells (es : List DirEntry) (replies : List Reply) : ListingMode → Prop
  | .split => Framed es replies
  | .truncate => ∃ r, replies = [r] ∧ Clipped es r

namespace Scene

/-- A listing that is asked for next succeeds and tells these entries, however slow the transport is
and whatever the tasks do meanwhile. -/
def Lists (s : Scene size chunk (Disturbed ι Volume) FileHandle ε) (mode : ListingMode)
    (es : List DirEntry) : Prop :=
  ∀ (transport : Transport ε) (bytes : Bytes) (p : Packet)
    (cs : List (Action (Disturbed ι Volume) ε)),
    Packet.decode bytes = .ok p → p.command = .ls → (∀ n, transport.refuse n = none) →
      (∀ c ∈ cs, c.Waits Aside.LeavesStore) →
      transport.waits ((es.flatMap entryLine).length + 1) ≤ looks cs →
      ∃ replies, .answered (.served (.ok .success) replies) ∈
        s.events (.request (.frame transport bytes) :: cs) ∧ mode.Tells es replies

/-- Where paths are resolved behind the working directory, a listing is of what stands in it. -/
theorem lists_children {s : Scene size chunk (Disturbed ι Volume) FileHandle ε}
    {e : Endpoint chunk FileHandle} {k : Key} (hhand : s.hand = .free e)
    (hpaths : e.config.paths = .relative) (htree : s.device.store.store.tree.Wellformed)
    (hm : s.device.store.store.mounted = true)
    (hd : Disturbance.Unarmed s.device.store.disturbance) (hkey : Volume.key e.cwd = .ok k)
    (hdir : s.device.store.store.tree.get? k = some .dir) :
    s.Lists e.config.listing (s.device.store.store.tree.children k) := by
  intro transport bytes p cs hdecode hc ho hcs hlooks
  have htarget : listingTarget e = e.cwd := by
    unfold listingTarget
    rw [hpaths]
  rw [← htarget] at hkey
  have hopen := Disturbed.openDir_eq_ok hd hm hkey hdir
  have hserves : s.device.store.Serves s.device.store.store.generation :=
    ⟨hd, Volume.takes_iff.mpr ⟨hm, rfl⟩⟩
  have hrun := Request.ls_within (e := e) (d := s.device) hdecode hc ho hserves hopen
  dsimp only at hrun
  rw [htree.told_children k] at hrun
  obtain ⟨x, w, ⟨replies, rfl, hlisting⟩, hmem⟩ := request_within hhand hrun hcs hlooks
  exact ⟨replies, hmem, hlisting⟩

/-- Where the host stands, whatever has happened and whatever disturbs the store. The path of the
working directory is never empty and has fewer than 64 bytes. Where paths are resolved behind it, it
is absolute and in normal form, and any path that a packet can bring has room behind it. A request
leaves the host where it is, unless it is carried out as a command to enter a directory, which is
there, or is a format, which takes the host to the root. And who was told that a directory was
entered, under such settings, can have it listed: with no failure of the store in the way the
listing tells all that stood in it, each entry once and in the order of the names. -/
theorem stands_in_a_directory (config : Config) (timing : Timing) (store : Disturbed ι Volume)
    (as : List (Action (Disturbed ι Volume) ε)) (e : Endpoint chunk FileHandle) :
    let s : Scene size chunk (Disturbed ι Volume) FileHandle ε :=
      (initial config timing store).after as
    s.hand = .free e →
    e.cwd ≠ [] ∧ e.cwd.length < Path.maxDirectory ∧
    (config.paths = .relative →
      Path.isAbsolute e.cwd = true ∧ Path.normalize e.cwd = .ok e.cwd ∧
      ∀ p : Bytes, p.length < Path.maxLength →
        (e.cwd ++ [Path.slash] ++ p).length ≤ Path.maxLength + Path.maxDirectory + 1 ∧
        Path.resolve e.cwd p = Path.normalize (Path.joined e.cwd p)) ∧
    ∀ r bs qs x w, s.AnswersLast (.request r :: bs) qs x w →
      ((∀ b ∈ bs, b.Waits fun _ => True) → r.Moves e s.device x) ∧
      ∀ p replies, r.Brings p → p.command = .cd → x.1 = .served (.ok .success) replies →
        config.paths = .relative → (∀ b ∈ bs, b.Waits Aside.OnlyFaults) →
        s.device.store.store.Reachable → Disturbance.Unarmed w.store.disturbance →
        ∃ k es, Volume.key x.2.cwd = .ok k ∧ es.Pairwise (fun y z => y.name < z.name) ∧
          (∀ y, y ∈ es ↔ ∃ n, s.device.store.store.tree.get? (k ++ [y.name]) = some n ∧
            y.kind = n.kind ∧ y.size = n.size) ∧
          (s.after (.request r :: bs)).Lists config.listing es := by
  intro s hfree
  have hplace : e.WellPlaced := wellPlaced hfree
  have hconfig : e.config = config := settings hfree
  refine ⟨hplace.named, hplace.short, fun hpaths => ?normal,
    fun r bs qs x w hlast => ⟨?moves, ?listed⟩⟩
  case normal =>
    obtain ⟨habsolute, hnormal⟩ := hplace.normal (hconfig ▸ hpaths)
    refine ⟨habsolute, hnormal, fun p hp => ?_⟩
    have hroom := Path.length_joined_le hplace.short hp
    exact ⟨hroom, Path.resolve_of_room hroom⟩
  case moves =>
    intro hbs
    obtain ⟨-, hmoves⟩ := (hlast.requested hfree hbs).meets (r.routine_moves e s.device s.device)
    exact hmoves
  case listed =>
    intro p replies hp hc hsuccess hpaths hbs hv hunarmed
    have hreached := hlast.requested hfree hbs
    obtain ⟨-, hmoves⟩ := hreached.meets (r.routine_moves e s.device s.device)
    obtain ⟨-, hkept⟩ := hreached.meets (r.routine_settings e s.device s.device)
    obtain ⟨transport, bytes, rfl, hdecode⟩ := hp
    obtain ⟨-, ⟨htree, hmounted⟩, -⟩ :=
      hreached.meets (Request.cd_arranged hdecode hc e s.device)
    -- The host was told of success, so it has moved.
    have hthere : s.device.store.store.HasDir x.2.cwd := by
      cases hmoves with
      | stays hother => exact absurd hc (hother p ((Request.brings_frame hdecode).mpr rfl)).1
      | fails _ _ _ _ htold => exact absurd hsuccess (htold replies)
      | enters _ _ _ _ hdir => exact hdir
      | wipes q hq hformat =>
        obtain rfl := (Request.brings_frame hdecode).mp hq
        cases hc.symm.trans hformat
    obtain ⟨hm, k, hkey, hdir⟩ := hthere
    have hwell : s.device.store.store.tree.Wellformed :=
      hv.wellformed.tree (hv.wellformed.formatted hm)
    have hsettings : x.2.config = config := hkept.trans hconfig
    have hlists : (⟨w, .free x.2⟩ : Scene size chunk (Disturbed ι Volume) FileHandle ε).Lists
        x.2.config.listing (w.store.store.tree.children k) :=
      lists_children rfl (hsettings ▸ hpaths) (htree ▸ hwell) (hmounted.trans hm) hunarmed hkey
        (htree ▸ hdir)
    rw [htree, hsettings] at hlists
    refine ⟨k, s.device.store.store.tree.children k, hkey, hwell.children_sorted k,
      fun y => hwell.mem_children, ?_⟩
    rw [hlast.scene]
    exact hlists

/-- A directory with a file in it is entered from the root and listed. -/
theorem entered_and_listed :
    let volume := (((Volume.fresh 16 64).perform (.mkdir (Bytes.ofText "d"))).volume.perform
      (.openFile (Bytes.ofText "d/f") { write := true, create := true })).volume
    let ask (command : Command) (id : UInt32) (payload : Bytes) :
        Action (Disturbed Mishap Volume) Unit :=
      .request (.frame .instant (Packet.frame ⟨command, id, payload⟩))
    let s : Scene 1 1 (Disturbed Mishap Volume) FileHandle Unit :=
      (initial { paths := .relative } ⟨1, 1⟩ ⟨{}, volume⟩).after [ask .pwd 0 []]
    let cd := ask .cd 1 (Bytes.ofText "./d")
    ∃ e e' es replies, s.hand = .free e ∧ e.cwd = rootDirectory ∧
      (s.after [cd]).hand = .free e' ∧ e'.cwd = Bytes.ofText "/d" ∧
      ⟨Bytes.ofText "f", .file, 0⟩ ∈ es ∧ Framed es replies ∧
      .answered (.served (.ok .success) replies) ∈ (s.after [cd]).events [ask .ls 2 []] := by
  intro volume ask s cd
  have hfree : s.endpoint?.map (·.cwd) = some rootDirectory := by decide +kernel
  obtain ⟨e, he, hroot⟩ := Option.map_eq_some_iff.mp hfree
  have hdone : (s.after [cd]).endpoint?.map (·.cwd) = some (Bytes.ofText "/d") := by
    decide +kernel
  obtain ⟨e', he', hentered⟩ := Option.map_eq_some_iff.mp hdone
  have hevents : s.events [cd] = [.answered (.served (.ok .success) [done])] := by decide +kernel
  have hanswer :
      s.AnswersLast [cd] [] (.served (.ok .success) [done], e') (s.after [cd]).device := by
    refine ⟨fun _ => List.not_mem_nil, hevents, ?_⟩
    rw [← hand_of_endpoint? he']
  have hstore : s.device.store = ⟨{}, volume⟩ := by decide +kernel
  have hv : s.device.store.store.Reachable := by
    rw [hstore]
    exact .perform _ (.perform _ (.fresh 16 64 (by decide)))
  have hunarmed : Disturbance.Unarmed (s.after [cd]).device.store.disturbance :=
    Mishap.unarmed (by decide +kernel)
  have hdecode : Packet.decode (Packet.frame ⟨.cd, 1, Bytes.ofText "./d"⟩) =
      .ok ⟨.cd, 1, Bytes.ofText "./d"⟩ := by
    decide +kernel
  obtain ⟨-, -, -, hmoves⟩ := @stands_in_a_directory 1 1 Mishap Unit _ { paths := .relative } ⟨1, 1⟩
    ⟨{}, volume⟩ [ask .pwd 0 []] e (hand_of_endpoint? he)
  obtain ⟨-, hlisted⟩ := hmoves _ [] [] _ _ hanswer
  obtain ⟨k, es, hkey, -, hmem, hlists⟩ :=
    hlisted _ _ ⟨_, _, rfl, hdecode⟩ rfl rfl rfl nofun hv hunarmed
  have hk : k = [Bytes.ofText "d"] := by
    have hkey' : Volume.key (Bytes.ofText "/d") = .ok k := hentered ▸ hkey
    have hplace : Volume.key (Bytes.ofText "/d") = .ok [Bytes.ofText "d"] := by decide +kernel
    exact Except.ok.inj (hkey'.symm.trans hplace)
  have hfile : s.device.store.store.tree.get? [Bytes.ofText "d", Bytes.ofText "f"] =
      some (.file []) := by
    decide +kernel
  have hls : Packet.decode (Packet.frame ⟨.ls, 2, []⟩) = .ok ⟨.ls, 2, []⟩ := rfl
  obtain ⟨replies, hreplies, htells⟩ := hlists .instant _ _ [] hls rfl (fun _ => rfl) nofun
    (by simp [Transport.waits, Transport.instant])
  refine ⟨e, e', es, replies, hand_of_endpoint? he, hroot, hand_of_endpoint? he', hentered, ?_,
    htells, hreplies⟩
  rw [hmem, hk]
  exact ⟨_, hfile, rfl, rfl⟩

/-- A directory is entered even if the transport refuses to tell of it: here the host is told of
nothing, it does not ask for a format, and it stands elsewhere than before. -/
theorem refused_host_moves :
    let ask (transport : Transport Unit) (command : Command) (id : UInt32) (payload : Bytes) :
        Action (Disturbed Mishap Volume) Unit :=
      .request (.frame transport (Packet.frame ⟨command, id, payload⟩))
    let s : Scene 4 8 (Disturbed Mishap Volume) FileHandle Unit :=
      (initial {} ⟨1, 1⟩ ⟨{}, Volume.fresh 1 8⟩).after [ask .instant .mkdir 0 (Bytes.ofText "d")]
    let cd := ask ⟨fun _ => some (), false⟩ .cd 1 (Bytes.ofText "d")
    s.endpoint?.map (·.cwd) = some rootDirectory ∧
      s.events [cd] = [.answered (.served (.error ()) [])] ∧
      (s.after [cd]).endpoint?.map (·.cwd) = some (Bytes.ofText "d") := by
  decide +kernel

end Scene

end PanelLink
