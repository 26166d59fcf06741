import PanelLink.Proofs.Drift
import PanelLink.Proofs.Framing
import PanelLink.Proofs.Holding
import PanelLink.Proofs.Room
import PanelLink.Proofs.RoundTrip

/-!
What the host learns of a directory when it asks for a listing: every entry once, by its name in
ascending order, whole if a reply can hold it; or as many of them as one reply holds.
-/
namespace PanelLink

open Device

variable {size chunk : Nat} {σ φ δ ι ε : Type}

/-! ## A store that is held -/

namespace Device

variable [FileStore σ φ δ]

/-- While the store is held only a change from outside reaches it. -/
theorem aside_store {d : Device size σ φ} {a : Aside σ} (h : d.held = true) (ha : a.LeavesStore) :
    (a.apply d).2.store = d.store := by
  cases a with
  | poll => exact pollLoader_store h
  | tick => exact d.tick_store
  | timer =>
    show d.pollTimer.store = d.store
    unfold pollTimer
    split
    · exact d.tick_store
    · rfl
  | alter change => exact ha.elim
  | setFault fault => rfl

theorem resumes_store {p : Pause} {d w : Device size σ φ} {t : σ}
    (h : Resumes Aside.LeavesStore p d w) (hd : d.store = t ∧ d.held = true) :
    w.store = t ∧ w.held = true :=
  h.induct (P := fun d => d.store = t ∧ d.held = true)
    (fun d a ha hd => ⟨(aside_store hd.2 ha).trans hd.1, (d.aside_held a).trans hd.2⟩)
    (fun d hd => ⟨(d.arrived_store p).trans hd.1, (d.arrived_held p).trans hd.2⟩) hd

end Device

theorem Transport.waits_mono (t : Transport ε) {m n : Nat} (h : m ≤ n) : t.waits m ≤ t.waits n := by
  unfold waits
  split <;> omega

/-! ## The entries of a directory -/

namespace Handler

variable [Disturbance ι] {t : Disturbed ι Volume} {g : UInt32}
  {R : Pause → Device size (Disturbed ι Volume) FileHandle →
    Device size (Disturbed ι Volume) FileHandle → Prop}
  {P : Device size (Disturbed ι Volume) FileHandle → Prop}

def told (entries : List DirEntry) : List DirEntry :=
  entries.filter fun e => !e.isDot

theorem told_cons_dot {e : DirEntry} (h : e.isDot = true) (entries : List DirEntry) :
    told (e :: entries) = told entries := by
  simp [told, h]

theorem told_cons {e : DirEntry} (h : e.isDot = false) (entries : List DirEntry) :
    told (e :: entries) = e :: told entries := by
  simp [told, h]

variable (R chunk ε) in
/-- The next entry of a directory that can be read. -/
theorem readDir_posts (hP : ∀ d, P d → d.store = t) (ht : t.Serves g) (entries : List DirEntry) :
    Conduct.Posts R P
      (Conduct.onStore fun s =>
          let (next, dir, s) := FileStore.readDir s (⟨entries, g⟩ : DirHandle)
          ((next, dir), s) : Conduct size chunk (Disturbed ι Volume) FileHandle ε _)
      (.ok entries.head?, ⟨entries.tail, g⟩) [] := by
  refine .onStore fun d hd => ?_
  have hserves : d.store.Serves (⟨entries, g⟩ : DirHandle).generation := hP d hd ▸ ht
  rw [hserves.readDir]

theorem appendEntries_nil (hP : ∀ d, P d → d.store = t) (ht : t.Serves g) (mode : ListingMode)
    (n : Nat) (r : Reply) :
    Conduct.Posts R P
      (appendEntries mode (n + 1) (⟨[], g⟩ : DirHandle) r :
        Conduct size chunk (Disturbed ι Volume) FileHandle ε _)
      (.ok r, ⟨[], g⟩) [] := by
  have hread := readDir_posts chunk ε R hP ht []
  unfold appendEntries
  exact hread.bind (.pure _)

section

variable {e : DirEntry} {mode : ListingMode} {n : Nat} {entries : List DirEntry} {r : Reply}
  {x : Except CommandError Reply × DirHandle} {rs rs' : List Reply}

theorem appendEntries_dot (hP : ∀ d, P d → d.store = t) (ht : t.Serves g) (hdot : e.isDot = true)
    (hrest : Conduct.Posts R P
      (appendEntries mode n (⟨entries, g⟩ : DirHandle) r :
        Conduct size chunk (Disturbed ι Volume) FileHandle ε _) x rs) :
    Conduct.Posts R P
      (appendEntries mode (n + 1) (⟨e :: entries, g⟩ : DirHandle) r :
        Conduct size chunk (Disturbed ι Volume) FileHandle ε _) x rs := by
  have hread := readDir_posts chunk ε R hP ht (e :: entries)
  unfold appendEntries
  refine hread.bind ?_
  dsimp only [List.head?_cons, List.tail_cons]
  rw [if_pos hdot]
  exact hrest

/-- An entry is added, and the rest follows if it went in. -/
theorem appendEntries_cons (hP : ∀ d, P d → d.store = t) (ht : t.Serves g) (hdot : e.isDot = false)
    {added : Option Reply}
    (hentry : Posts R P
      (appendEntry mode e r : Handler size chunk (Disturbed ι Volume) FileHandle ε _) added rs)
    (hrest : Conduct.Posts R P
      (match added with
        | none => pure (.ok r, ⟨entries, g⟩)
        | some q => appendEntries mode n (⟨entries, g⟩ : DirHandle) q :
        Conduct size chunk (Disturbed ι Volume) FileHandle ε _) x rs') :
    Conduct.Posts R P
      (appendEntries mode (n + 1) (⟨e :: entries, g⟩ : DirHandle) r :
        Conduct size chunk (Disturbed ι Volume) FileHandle ε _) x (rs ++ rs') := by
  have hread := readDir_posts chunk ε R hP ht (e :: entries)
  have hpresent : ¬ e.isDot = true := by simp [hdot]
  unfold appendEntries
  refine hread.bind ?_
  dsimp only [List.head?_cons, List.tail_cons]
  rw [if_neg hpresent]
  refine Conduct.Posts.bind hentry ?_
  cases added with
  | none => exact hrest
  | some q => exact hrest

end

variable (chunk ε) in
/-- All entries go into a split listing, one after the other. -/
theorem appendEntries_split (hR : ∀ d w, P d → R .delivery d w → P w)
    (hP : ∀ d, P d → d.store = t) (ht : t.Serves g) {n : Nat} {entries : List DirEntry}
    (hn : entries.length < n) {es : List DirEntry} {front : List Bytes} {r : Reply} (hr : Listed r)
    (htiles : Tiles es (front ++ [r.payload])) :
    ∃ rs q, Conduct.Posts R P
        (appendEntries .split n (⟨entries, g⟩ : DirHandle) r :
          Conduct size chunk (Disturbed ι Volume) FileHandle ε _)
        (.ok q, ⟨[], g⟩) rs ∧
      Listed q ∧ Parts rs ∧ Tiles (es ++ told entries) (front ++ payloads rs q) := by
  induction entries generalizing n es front r with
  | nil =>
    obtain ⟨n, rfl⟩ : ∃ m, n = m + 1 := ⟨n - 1, by omega⟩
    refine ⟨[], r, appendEntries_nil hP ht .split n r, hr, .nil, ?_⟩
    rw [payloads_nil]
    simpa [told] using htiles
  | cons e entries ih =>
    obtain ⟨n, rfl⟩ : ∃ m, n = m + 1 := ⟨n - 1, by omega⟩
    have hleft : entries.length < n := Nat.lt_of_succ_lt_succ hn
    cases hdot : e.isDot with
    | true =>
      obtain ⟨rs, q, hposts, hq, hrs, hrest⟩ := ih hleft hr htiles
      rw [← told_cons_dot hdot entries] at hrest
      exact ⟨rs, q, appendEntries_dot hP ht hdot hposts, hq, hrs, hrest⟩
    | false =>
      obtain ⟨rs, q, hentry, hq, hrs, hgrows, hone⟩ :=
        appendEntry_split chunk ε hR e r hr
      have hsnoc : Tiles (es ++ [e]) (front ++ rs.map (·.payload) ++ [q.payload]) := by
        rw [List.append_assoc, ← payloads_snoc]
        exact htiles.snoc hgrows hone
      obtain ⟨rs', q', hposts, hq', hrs', hrest⟩ := ih hleft hq hsnoc
      have hwhole : Tiles (es ++ told (e :: entries)) (front ++ payloads (rs ++ rs') q') := by
        rw [told_cons hdot, payloads_append, ← List.singleton_append, ← List.append_assoc,
          ← List.append_assoc]
        exact hrest
      exact ⟨rs ++ rs', q', appendEntries_cons hP ht hdot hentry hposts, hq', hrs.append hrs',
        hwhole⟩

variable (chunk ε) in
/-- As many entries go into one reply as it has room for. -/
theorem appendEntries_truncate (hR : ∀ d w, P d → R .delivery d w → P w)
    (hP : ∀ d, P d → d.store = t) (ht : t.Serves g) {n : Nat} {entries : List DirEntry}
    (hn : entries.length < n) {r : Reply} (hr : Listed r) :
    ∃ q dir m, Conduct.Posts R P
        (appendEntries .truncate n (⟨entries, g⟩ : DirHandle) r :
          Conduct size chunk (Disturbed ι Volume) FileHandle ε _)
        (.ok q, dir) [] ∧
      dir.generation = g ∧ Listed q ∧ m ≤ (told entries).length ∧
      q.payload = r.payload ++ ((told entries).take m).flatMap entryLine ∧
      ∀ m' ≤ (told entries).length,
        (r.payload ++ ((told entries).take m').flatMap entryLine).length ≤ Reply.capacity →
          m' ≤ m := by
  induction entries generalizing n r with
  | nil =>
    obtain ⟨n, rfl⟩ : ∃ m, n = m + 1 := ⟨n - 1, by omega⟩
    exact ⟨r, ⟨[], g⟩, 0, appendEntries_nil hP ht .truncate n r, rfl, hr, Nat.le_refl 0,
      (List.append_nil _).symm, fun m' hm' _ => hm'⟩
  | cons e entries ih =>
    obtain ⟨n, rfl⟩ : ∃ m, n = m + 1 := ⟨n - 1, by omega⟩
    have hleft : entries.length < n := Nat.lt_of_succ_lt_succ hn
    cases hdot : e.isDot with
    | true =>
      obtain ⟨q, dir, m, hposts, hrest⟩ := ih hleft hr
      rw [← told_cons_dot hdot entries] at hrest
      exact ⟨q, dir, m, appendEntries_dot hP ht hdot hposts, hrest⟩
    | false =>
      rw [told_cons hdot]
      by_cases hfits : (entryLine e).length ≤ r.remaining
      · obtain ⟨q, hentry, hq, hpayload⟩ :=
          appendEntry_fits chunk ε hR .truncate e r hr hfits
        obtain ⟨q', dir, m, hposts, hdir, hq', hm, hpayload', hlongest⟩ := ih hleft hq
        refine ⟨q', dir, m + 1, appendEntries_cons hP ht hdot hentry hposts, hdir, hq',
          Nat.succ_le_succ hm, ?_, fun m' hm' hle => ?_⟩
        · rw [hpayload', hpayload, List.take_succ_cons, List.flatMap_cons, List.append_assoc]
        · cases m' with
          | zero => exact Nat.zero_le _
          | succ m' =>
            rw [List.take_succ_cons, List.flatMap_cons, ← List.append_assoc, ← hpayload] at hle
            exact Nat.succ_le_succ (hlongest m' (Nat.le_of_succ_le_succ hm') hle)
      · -- A run of entries that is not empty has this one at its head, and is too long for that.
        have hstop : Conduct.Posts R P
            (appendEntries .truncate (n + 1) (⟨e :: entries, g⟩ : DirHandle) r :
              Conduct size chunk (Disturbed ι Volume) FileHandle ε _) (.ok r, ⟨entries, g⟩) [] :=
          appendEntries_cons hP ht hdot (appendEntry_truncate hfits) (.pure _)
        refine ⟨r, ⟨entries, g⟩, 0, hstop, rfl, hr, Nat.zero_le _, (List.append_nil _).symm,
          fun m' hm' hle => ?_⟩
        cases m' with
        | zero => exact Nat.le_refl 0
        | succ m' =>
          rw [List.take_succ_cons, List.flatMap_cons, List.length_append, List.length_append] at hle
          unfold Reply.remaining at hfits
          omega

/-! ## The whole listing -/

variable {s : Serving chunk FileHandle ε} {d : Device size (Disturbed ι Volume) FileHandle}

abbrev Holds (t : Disturbed ι Volume) (d : Device size (Disturbed ι Volume) FileHandle) : Prop :=
  d.store = t ∧ d.held = true

/-- What the entries send while the store is held goes out before what is left of the listing. -/
theorem ls_within_of {dir dir' : DirHandle} {q r : Reply} {rs rest : List Reply}
    (ho : s.outbox.Free) (ht : d.store.Serves dir.generation)
    (hopen : FileStore.openDir d.store (listingTarget s.endpoint) = (.ok dir, d.store))
    (hentries : Conduct.Posts (Resumes Aside.LeavesStore) (Holds d.store)
      (appendEntries s.endpoint.config.listing (dir.entries.length + 1) dir done :
        Conduct size chunk (Disturbed ι Volume) FileHandle ε _) (.ok q, dir') rs)
    (hdir : dir'.generation = dir.generation)
    (hlisted : Posts (Resumes Aside.LeavesStore) (fun _ => True)
      (listed s.endpoint.config.listing (.ok q) (.ok ()) :
        Handler size chunk (Disturbed ι Volume) FileHandle ε Reply) r rest) :
    (Handler.on ls s d).Within (Resumes Aside.LeavesStore)
      (fun x _ => x = (.ok r, { s with outbox := s.outbox.took (rs ++ rest) }))
      (s.outbox.transport.waits (rs ++ rest).length) := by
  have hwaits : s.outbox.transport.waits rs.length + s.outbox.transport.waits rest.length ≤
      s.outbox.transport.waits (rs ++ rest).length := by
    apply Transport.waits_le
    exact Nat.le_of_eq List.length_append.symm
  have hrun := hentries s { d with held := true } ho ⟨rfl, rfl⟩
  rw [on_ls, hopen]
  refine (hrun.bind fun x w hx => ?_).mono hwaits
  obtain ⟨rfl, hw, -⟩ := hx
  have hclose : FileStore.closeDir w.store dir' = (.ok (), w.store) :=
    Disturbed.Serves.closeDir (hdir ▸ hw ▸ ht)
  have hrest := hlisted { s with outbox := s.outbox.took rs }
    { w with store := w.store, held := false } (ho.took rs) trivial
  dsimp only
  rw [hclose]
  refine hrest.imp fun x w hx => ?_
  rw [hx.1, Outbox.took_took]

/-- A listing tells the entries of the directory, split or clipped as the settings say. -/
theorem ls_within {dir : DirHandle} (ho : s.outbox.Free) (ht : d.store.Serves dir.generation)
    (hopen : FileStore.openDir d.store (listingTarget s.endpoint) = (.ok dir, d.store)) :
    (Handler.on ls s d).Within (Resumes Aside.LeavesStore)
      (fun x _ => ∃ rs r, x = (.ok r, { s with outbox := s.outbox.took rs }) ∧
        r.status = .success ∧
        match s.endpoint.config.listing with
        | .split => Framed (told dir.entries) (rs ++ [r])
        | .truncate => rs = [] ∧ Clipped (told dir.entries) r)
      (s.outbox.transport.waits ((told dir.entries).flatMap entryLine).length) := by
  have hR (v w : Device size (Disturbed ι Volume) FileHandle) (hv : Holds d.store v)
      (hw : Resumes Aside.LeavesStore .delivery v w) : Holds d.store w := resumes_store hw hv
  have hfree (v w : Device size (Disturbed ι Volume) FileHandle) (_ : True)
      (_ : Resumes Aside.LeavesStore .delivery v w) : True := trivial
  obtain ⟨entries, g⟩ := dir
  have hlt : entries.length < entries.length + 1 := Nat.lt_succ_self _
  cases hmode : s.endpoint.config.listing with
  | split =>
    have hnil : Tiles [] ([] ++ [done.payload]) := Tiles.nil
    obtain ⟨rs, q, hentries, hq, hrs, htiles⟩ :=
      appendEntries_split chunk ε hR (fun _ h => h.1) ht hlt listed_done hnil
    obtain ⟨rest, hlisted, hrest⟩ := listed_split chunk ε hfree hq.1
    obtain ⟨hframed, hlength⟩ := hrs.framed hq htiles hrest
    rw [← hmode] at hentries hlisted
    have hrun := ls_within_of ho ht hopen hentries rfl hlisted
    refine (hrun.imp fun x w hx => ?_).mono (s.outbox.transport.waits_mono hlength)
    exact ⟨rs ++ rest, done, hx, rfl, hframed⟩
  | truncate =>
    obtain ⟨q, dir', m, hentries, hdir, hq, hm, hpayload, hlongest⟩ :=
      appendEntries_truncate chunk ε hR (fun _ h => h.1) ht hlt listed_done
    have hlisted : Posts (Resumes Aside.LeavesStore) (fun _ => True)
        (listed .truncate (.ok q) (.ok ()) :
          Handler size chunk (Disturbed ι Volume) FileHandle ε Reply) q [] := listed_truncate q
    rw [← hmode] at hentries hlisted
    have hrun := ls_within_of ho ht hopen hentries hdir hlisted
    refine (hrun.imp fun x w hx => ?_).mono (s.outbox.transport.waits_mono (Nat.zero_le _))
    exact ⟨[], q, hx, hq.1, rfl, hq.1, hq.2, m, hm, hpayload, hlongest⟩

end Handler

section

variable [Disturbance ι] {e : Endpoint chunk FileHandle}
  {d : Device size (Disturbed ι Volume) FileHandle} {transport : Transport ε} {bytes : Bytes}
  {p : Packet} {dir : DirHandle}

/-- The host gets the listing and is told that it is done. -/
theorem Request.ls_within (hdecode : Packet.decode bytes = .ok p) (hc : p.command = .ls)
    (ho : ∀ n, transport.refuse n = none) (ht : d.store.Serves dir.generation)
    (hopen : FileStore.openDir d.store (Handler.listingTarget e) = (.ok dir, d.store)) :
    ((Request.frame transport bytes).routine e d).Within (Resumes Aside.LeavesStore)
      (fun x _ => ∃ replies, x = (.served (.ok .success) replies, e) ∧
        match e.config.listing with
        | .split => Framed (Handler.told dir.entries) replies
        | .truncate => ∃ r, replies = [r] ∧ Clipped (Handler.told dir.entries) r)
      (transport.waits (((Handler.told dir.entries).flatMap Handler.entryLine).length + 1)) := by
  have hfree : (Outbox.empty transport).Free := ⟨rfl, ho⟩
  have hls := Handler.ls_within (s := ⟨e, .empty transport⟩) hfree ht hopen
  have hexecute : (Handler.execute p : Handler size chunk (Disturbed ι Volume) FileHandle ε Reply) =
      Handler.ls := by
    unfold Handler.execute
    rw [hc]
  rw [Request.routine_frame, Conduct.on_serve _ _ hdecode, hexecute, Run.bind_bind]
  refine (hls.bind fun x w hx => ?_).mono (transport.waits_le (Nat.le_refl _))
  obtain ⟨rs, r, rfl, hstatus, hlisting⟩ := hx
  have hconclude := Conduct.conclude_within (R := Resumes Aside.LeavesStore)
    (s := ⟨e, (Outbox.empty transport).took rs⟩) (d := w) (hfree.took rs) (.ok r)
  refine hconclude.next fun x w hx => ?_
  have hsent : (((Outbox.empty transport).took rs).took [r]).sent = rs ++ [r] := rfl
  have hfinal : (finalReply (.ok r)).status = .success := hstatus
  refine ⟨rs ++ [r], by rw [hx, hfinal]; rfl, ?_⟩
  dsimp only at hlisting
  cases hmode : e.config.listing with
  | split =>
    rw [hmode] at hlisting
    exact hlisting
  | truncate =>
    rw [hmode] at hlisting
    obtain ⟨rfl, hclipped⟩ := hlisting
    exact ⟨r, rfl, hclipped⟩

end

theorem Volume.openDir_eq_ok {v : Volume} {path : Bytes} {k : Key} (hm : v.mounted = true)
    (hk : key path = .ok k) (hdir : v.tree.get? k = some .dir) :
    v.openDir path = (.ok ⟨dotEntries ++ v.tree.children k, v.generation⟩, v) := by
  simp only [openDir, mountFailure, if_pos hm, hk, hdir]

theorem Disturbed.openDir_eq_ok [Disturbance ι] {t : Disturbed ι Volume} {path : Bytes} {k : Key}
    (hd : Disturbance.Unarmed t.disturbance) (hm : t.store.mounted = true)
    (hk : Volume.key path = .ok k) (hdir : t.store.tree.get? k = some .dir) :
    FileStore.openDir t path =
      (.ok ⟨Volume.dotEntries ++ t.store.tree.children k, t.store.generation⟩, t) := by
  have hcall : FileStore.openDir t path = _ := call_unarmed hd .openDir fun v => v.openDir path
  rwa [Volume.openDir_eq_ok hm hk hdir] at hcall

/-- A listing is of the root or of the working directory, as the settings say. -/
theorem Tree.Wellformed.listingTarget {t : Tree} (h : t.Wellformed) {e : Endpoint chunk φ} {k : Key}
    (hk : match e.config.paths with
      | .literal => k = []
      | .relative => Volume.key e.cwd = .ok k ∧ t.get? k = some .dir) :
    Volume.key (Handler.listingTarget e) = .ok k ∧ t.get? k = some .dir := by
  unfold Handler.listingTarget
  cases hpaths : e.config.paths with
  | literal =>
    rw [hpaths] at hk
    obtain rfl : k = [] := hk
    exact ⟨rfl, h.root⟩
  | relative =>
    rw [hpaths] at hk
    exact hk

/-- The dot entries are not told, but all that stands in the directory. -/
theorem Tree.Wellformed.told_children {t : Tree} (h : t.Wellformed) (k : Key) :
    Handler.told (Volume.dotEntries ++ t.children k) = t.children k := by
  have hdots : Handler.told Volume.dotEntries = [] := rfl
  have hall : Handler.told (t.children k) = t.children k := by
    refine List.filter_eq_self.mpr fun e he => ?_
    rw [h.isDot_of_mem_children he]
    rfl
  rw [Handler.told, List.filter_append]
  exact (congrArg₂ (· ++ ·) hdots hall).trans (List.nil_append _)

namespace Scene

variable [Disturbance ι] {s : Scene size chunk (Disturbed ι Volume) FileHandle ε}
  {e : Endpoint chunk FileHandle} {transport : Transport ε} {bytes : Bytes} {p : Packet} {k : Key}

/-- What the host gets when it asks for a listing, whatever else goes on beside it: all that stands
in the root or in the working directory, as the settings say, each entry once and in the order of
the names; split into replies that keep whole what they can hold, the last of them empty, or as much
of it as one reply holds. -/
theorem listing_exact (hhand : s.hand = .free e) (hv : s.device.store.store.Reachable)
    (hm : s.device.store.store.mounted = true)
    (hd : Disturbance.Unarmed s.device.store.disturbance)
    (hk : match e.config.paths with
      | .literal => k = []
      | .relative => Volume.key e.cwd = .ok k ∧ s.device.store.store.tree.get? k = some .dir)
    (hdecode : Packet.decode bytes = .ok p) (hc : p.command = .ls)
    (ho : ∀ n, transport.refuse n = none) :
    ∃ es : List DirEntry,
      es.Pairwise (fun x y => x.name < y.name) ∧
      (∀ x, x ∈ es ↔ ∃ n, s.device.store.store.tree.get? (k ++ [x.name]) = some n ∧
        x.kind = n.kind ∧ x.size = n.size) ∧
      ∀ as : List (Action (Disturbed ι Volume) ε), (∀ a ∈ as, a.Waits Aside.LeavesStore) →
        transport.waits ((es.flatMap Handler.entryLine).length + 1) ≤ looks as →
        ∃ replies, .answered (.served (.ok .success) replies) ∈
            s.events (.request (.frame transport bytes) :: as) ∧
          match e.config.listing with
          | .split => Framed es replies
          | .truncate => ∃ r, replies = [r] ∧ Clipped es r ∧
              r.payload <+: es.flatMap Handler.entryLine := by
  have hwell := hv.wellformed
  have htree : s.device.store.store.tree.Wellformed := hwell.tree (hwell.formatted hm)
  obtain ⟨hkey, hdir⟩ := htree.listingTarget hk
  have hopen := Disturbed.openDir_eq_ok hd hm hkey hdir
  have hserves : s.device.store.Serves s.device.store.store.generation :=
    ⟨hd, Volume.takes_iff.mpr ⟨hm, rfl⟩⟩
  refine ⟨s.device.store.store.tree.children k, htree.children_sorted k,
    fun x => htree.mem_children, fun as has hlooks => ?_⟩
  have hrun := Request.ls_within (e := e) (d := s.device) hdecode hc ho hserves hopen
  dsimp only at hrun
  rw [htree.told_children k] at hrun
  obtain ⟨x, w, ⟨replies, rfl, hlisting⟩, hmem⟩ := request_within hhand hrun has hlooks
  refine ⟨replies, hmem, ?_⟩
  cases hmode : e.config.listing with
  | split =>
    rw [hmode] at hlisting
    exact hlisting
  | truncate =>
    rw [hmode] at hlisting
    obtain ⟨r, hr, hclipped⟩ := hlisting
    obtain ⟨m, -, hpayload, -⟩ := hclipped.longest
    obtain ⟨rest, hrest⟩ := List.take_prefix m (s.device.store.store.tree.children k)
    refine ⟨r, hr, hclipped, rest.flatMap Handler.entryLine, ?_⟩
    rw [hpayload, ← List.flatMap_append]
    exact congrArg _ hrest

/-- The root of a new volume, with a file `a` and a directory `b`. -/
theorem file_and_directory_told :
    let volume := (((Volume.fresh 16 64).perform (.mkdir [98])).volume.perform
      (.openFile [97] { write := true, create := true })).volume
    let s : Scene 1 1 (Disturbed Mishap Volume) FileHandle Unit := initial {} ⟨1, 1⟩ ⟨{}, volume⟩
    ∃ es replies, es.Pairwise (fun x y => x.name < y.name) ∧ ⟨[97], .file, 0⟩ ∈ es ∧
      ⟨[98], .dir, 0⟩ ∈ es ∧ Framed es replies ∧
      .answered (.served (.ok .success) replies) ∈
        s.events [.request (.frame .instant (Packet.frame ⟨.ls, 0, []⟩))] := by
  intro volume s
  have hv : s.device.store.store.Reachable :=
    .perform _ (.perform _ (.fresh 16 64 (by decide)))
  have hm : s.device.store.store.mounted = true := by decide +kernel
  have hd : Disturbance.Unarmed s.device.store.disturbance := Mishap.unarmed rfl
  have hdecode : Packet.decode (Packet.frame ⟨.ls, 0, []⟩) = .ok ⟨.ls, 0, []⟩ := rfl
  have haccepts (n : Nat) : (Transport.instant : Transport Unit).refuse n = none := rfl
  obtain ⟨es, hsorted, hmem, hrun⟩ :=
    listing_exact (s := s) (e := .initial {}) (k := []) rfl hv hm hd rfl hdecode rfl haccepts
  obtain ⟨replies, hanswer, hframed⟩ := hrun [] nofun (by simp [Transport.waits, Transport.instant])
  have ha : s.device.store.store.tree.get? [[97]] = some (.file []) := by decide +kernel
  have hb : s.device.store.store.tree.get? [[98]] = some .dir := by decide +kernel
  exact ⟨es, replies, hsorted, (hmem _).mpr ⟨_, ha, rfl, rfl⟩, (hmem _).mpr ⟨_, hb, rfl, rfl⟩,
    hframed, hanswer⟩

end Scene

end PanelLink
