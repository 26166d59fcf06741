import PanelLink.Proofs.Upload

/-!
Runs with an upload in them. Before it the numbers of the handles are sound; from its beginning on
each action keeps what the upload promises, as long as its file is not removed; after its end
nothing touches its handle.
-/
namespace PanelLink

open Recorded Device

variable {size chunk : Nat} {σ φ δ ε : Type} [FileStore σ φ δ]

namespace Scene

/-! ## Runs that keep a custody -/

/-- The device is in custody throughout, and between two commands the file of the upload is too. -/
structure Entrusted (ok : Aside σ → Prop) (K : Custody σ φ δ) (s : Scene size chunk σ φ ε) :
    Prop where
  under : s.device.Under K
  sound : s.Sound ok (fun e d => K.Uploading e.upload d.store ∧ d.Under K)
    (fun _ _ _ _ w => w.Under K) (fun _ _ _ x w => K.Uploading x.2.upload w.store ∧ w.Under K)

variable {ok : Aside σ → Prop} {K : Custody σ φ δ} {s : Scene size chunk σ φ ε}

theorem Entrusted.initial {config : Config} {timing : Timing} {store : σ} (h : K.store store) :
    (initial config timing store : Scene size chunk σ φ ε).Entrusted ok K := by
  have hd : (Device.initial timing store : Device size σ φ).Under K := ⟨h, nofun⟩
  exact ⟨hd, nofun, hd⟩

/-- Every action keeps the custody if every request does. -/
theorem Entrusted.step (hK : K.Reading)
    (hok : ∀ change s, ok (.alter change) → K.store s → K.Carries s (change s))
    (serve : ∀ (e : Endpoint chunk φ) (r : Request ε) (d : Device size σ φ),
      K.Uploading e.upload d.store → d.Under K →
      (r.routine e d).Meets (Resumes ok) (fun _ _ w => w.Under K)
        (fun _ x w => K.Uploading x.2.upload w.store ∧ w.Under K) d)
    (h : s.Entrusted ok K) {a : Action σ ε} (ha : ∀ x, a = .aside x → ok x) :
    (s.act a).2.Entrusted ok K := by
  have haside {d : Device size σ φ} (hd : d.Under K) {x : Aside σ} (hx : ok x) :
      Moves K d (x.apply d).2 := by
    refine hK.aside hd ?_
    rintro change rfl
    exact hok change d.store hx hd.store
  have hsound := sound_act h.sound a ha
    (fun x e d hx hr => ⟨(haside hr.2 hx).carries.uploading hr.1, (haside hr.2 hx).under⟩)
    (fun r e d hr => serve e r d hr.1 hr.2) fun _ _ _ _ _ _ hQ => hQ
  refine ⟨?_, hsound⟩
  obtain ⟨x, rfl⟩ | ⟨r, e, d, run, hadv⟩ | ⟨-, hs | ⟨r, e, p, k, -, -, hs⟩⟩ := s.act_cases a
  · exact (haside h.under (ha x rfl)).under
  · have hmeets := h.sound.meets (fun r e d hr => serve e r d hr.1 hr.2) hadv
    rw [hadv.act_eq]
    obtain ⟨p, k, -, -, hT⟩ | ⟨x, e', -, -, hQ⟩ :=
      settle_cases (T := fun _ _ _ _ w => w.Under K)
        (Q := fun _ _ _ x w => K.Uploading x.2.upload w.store ∧ w.Under K) hmeets
    · exact hT
    · exact hQ.2
  · rw [hs]
    exact h.under
  · rw [hs]
    exact (hK.look h.under p).under

section

variable (hK : K.Entire) (hok : ∀ change s, ok (.alter change) → K.store s → K.Carries s (change s))
include hK hok

private theorem entrusted_routine (e : Endpoint chunk φ) (r : Request ε) {d : Device size σ φ}
    (hu : K.Uploading e.upload d.store) (hd : d.Under K) :
    (r.routine e d).Meets (Resumes ok) (fun _ _ w => w.Under K)
      (fun _ x w => K.Uploading x.2.upload w.store ∧ w.Under K) d :=
  hK.routine hok (fun _ _ _ _ _ hw => hw) e r hu hd

theorem Entrusted.act (h : s.Entrusted ok K) {a : Action σ ε} (ha : ∀ x, a = .aside x → ok x) :
    (s.act a).2.Entrusted ok K :=
  h.step hK.toReading hok (fun e r _ hu hd => entrusted_routine hK hok e r hu hd) ha

theorem Entrusted.after (h : s.Entrusted ok K) {as : List (Action σ ε)}
    (has : ∀ x, .aside x ∈ as → ok x) : (s.after as).Entrusted ok K :=
  after_induct (fun a => ∀ x, a = .aside x → ok x) (fun _ _ ha h => h.act hK hok ha)
    (fun _ ha x hx => has x (hx ▸ ha)) h

end

theorem Hears.entrusted (hK : K.Reading)
    (hok : ∀ change s, ok (.alter change) → K.store s → K.Carries s (change s))
    {a : Action σ ε} {e e' : Endpoint chunk φ} {d' : Device size σ φ} {p : Packet}
    {result : Except CommandError Reply} (h : s.Hears a e p)
    (hy : e.Yields s.device p result e' d') (hu : K.Uploading e'.upload d'.store)
    (hd : d'.Under K) : (s.act a).2.Entrusted ok K := by
  obtain ⟨transport, bytes, hp, hact⟩ := h.act_eq
  have hmeets : ((Request.frame transport bytes).routine e s.device).Meets (Resumes ok)
      (fun _ _ w => w.Under K) (fun _ x w => K.Uploading x.2.upload w.store ∧ w.Under K)
      s.device := by
    refine hy.meets (P := fun e w => K.Uploading e.upload w.store ∧ w.Under K) hp ⟨hu, hd⟩ hd ?_
    intro w hw
    have hmoves := hK.resumes hok hd hw
    exact ⟨hmoves.carries.uploading hu, hmoves.under⟩
  rw [hact]
  cases hrun : (Request.frame transport bytes).routine e s.device with
  | done x w =>
    rw [hrun] at hmeets
    exact ⟨hmeets.2, hmeets⟩
  | paused q w resume =>
    rw [hrun] at hmeets
    exact ⟨hmeets.1, hmeets.2⟩

end Scene

/-! ## Runs with an upload -/

variable [Backed σ φ δ]

namespace Scene

def Stands (k : Key) (s : Scene size chunk (Recorded σ) (Ticket φ) ε) : Prop :=
  (Backed.volume s.device.store.store).tree.get? k ≠ none

/-- The invariant of a scene whose upload has the handle `n` and has taken `stream`. -/
structure Carrying (ok : Aside (Recorded σ) → Prop) (n : Nat) (k : Key) (base stream : Bytes)
    (s : Scene size chunk (Recorded σ) (Ticket φ) ε) : Prop where
  kept : Kept chunk n k base stream s.device
  sound : s.Sound ok (GoesOrEnded n k base stream) (fun _ _ _ _ w => Kept chunk n k base stream w)
    (fun _ _ _ x w => Left n k base stream x.2 w)

variable {ok : Aside (Recorded σ) → Prop} {n : Nat} {k : Key} {base stream : Bytes}
  {s : Scene size chunk (Recorded σ) (Ticket φ) ε}

/-- An upload begins with what the file held before, or with an empty file. -/
theorem begin_upload (hchunk : 0 < chunk) {r t : Recorded σ} {f : Ticket φ} {path : Bytes}
    (hr : (ledger : Custody (Recorded σ) (Ticket φ) (Ticket δ)).store r)
    (ho : FileStore.openFile r path .appending = (.ok f, t)) :
    ∃ k, Volume.key path = .ok k ∧
      Streaming r.issued k (((Backed.volume r.store).contents? path).getD []) []
        (.ofFile f : WriteSession chunk (Ticket φ)) t := by
  obtain ⟨hnumber, hissued, hcalls, hstore⟩ := openFile_ok ho
  have hunclosed : t.closes r.issued = 0 := by
    have hzero := closes_eq_zero hr (Nat.le_refl _)
    rw [closes, hcalls, List.count_cons_of_ne (by simp)]
    exact hzero
  have hopen := Backed.openFile_ok hstore
  have hstream {k : Key} (hkey : (Backed.file σ f.handle).key = k)
      (hflags : (Backed.file σ f.handle).flags = .appending) {base : Bytes}
      (hnode : (Backed.volume t.store).tree.get? k = some (.file base)) :
      Streaming r.issued k base [] (.ofFile f : WriteSession chunk (Ticket φ)) t := by
    refine ⟨[], rfl, Nat.dvd_zero _, hchunk, ⟨hnumber, hkey, ?_, ?_, hunclosed, ?_⟩⟩
    · rw [show (WriteSession.ofFile f : WriteSession chunk (Ticket φ)).file = f from rfl, hflags]
      rfl
    · omega
    · rwa [List.append_nil]
  obtain ⟨x, hx⟩ | ⟨k, hk, -, hcases⟩ := (Backed.volume r.store).openFile_cases path .appending
  · simp [hx] at hopen
  refine ⟨k, hk, ?_⟩
  obtain ⟨c, hc, -, ho'⟩ | ⟨c, -, ht, -⟩ | ⟨hn, -, ho'⟩ := hcases
  · rw [ho'] at hopen
    obtain ⟨hfile, hvolume⟩ := Prod.mk.inj hopen
    obtain hfile := Except.ok.inj hfile
    have hbase : (Backed.volume r.store).contents? path = some c := by
      simp only [Volume.contents?, hk, hc, Body.bytes_ofBytes]
    rw [hbase]
    refine hstream (by rw [← hfile]; rfl) (by rw [← hfile]; rfl) ?_
    rw [← hvolume]
    exact hc
  · simp [OpenFlags.appending] at ht
  · rw [ho'] at hopen
    obtain ⟨hfile, hvolume⟩ := Prod.mk.inj hopen
    obtain hfile := Except.ok.inj hfile
    have hbase : (Backed.volume r.store).contents? path = none := by
      simp only [Volume.contents?, hk, hn]
    rw [hbase]
    refine hstream (by rw [← hfile]; rfl) (by rw [← hfile]; rfl) ?_
    rw [← hvolume]
    show ((Backed.volume r.store).tree.insert k (.file [])).get? k = _
    rw [Tree.get?_insert, if_pos rfl]
    rfl

/-- Where a request has come to, the upload is as it should be unless the file is gone. -/
theorem carrying_settle {r : Request ε} {e : Endpoint chunk (Ticket φ)}
    {d : Device size (Recorded σ) (Ticket φ)}
    {run : Run (Device size (Recorded σ) (Ticket φ)) (Answer ε × Endpoint chunk (Ticket φ))}
    (h : KeepsUpload ok n k base stream d run) (hstands : (settle r e run).2.Stands k) :
    (settle r e run).2.Carrying ok n k base stream := by
  cases run with
  | done x w =>
    have hleft : Left n k base stream x.2 w := h
    obtain hup | hgone := hleft
    · exact ⟨hup.kept, hup⟩
    · exact absurd hgone.store.2.2 hstands
  | paused p w resume => exact ⟨h.1, h.2⟩

theorem Carrying.act (hok : Leaves ok) (h : s.Carrying ok n k base stream)
    {a : Action (Recorded σ) ε} (ha : ∀ x, a = .aside x → ok x) (hstands : (s.act a).2.Stands k) :
    (s.act a).2.Carrying ok n k base (stream ++ s.taken a) := by
  cases a with
  | aside x =>
    have hx := ha x rfl
    rw [show s.taken (.aside x) = [] from rfl, List.append_nil]
    exact ⟨h.kept.aside hok hx, sound_aside h.sound hx fun _ _ hup => hup.aside hok hx⟩
  | request r =>
    cases hs : s.hand with
    | free e =>
      have hup : GoesOrEnded n k base stream e s.device := h.sound.ready hs
      have htaken : s.taken (.request r) = r.taken e s.device := by simp only [taken, hs]
      rw [act_request hs] at hstands ⊢
      rw [htaken]
      exact carrying_settle (hup.routine hok r) hstands
    | busy r' e p resume =>
      have htaken : s.taken (.request r) = [] := by simp only [taken, hs]
      rwa [act_request_busy hs, htaken, List.append_nil]
  | resume =>
    rw [show s.taken .resume = [] from rfl, List.append_nil]
    cases hs : s.hand with
    | free e => rwa [act_resume_free hs]
    | busy r e p resume =>
      rcases harr : s.device.arrived p with ⟨_ | _, d⟩
      · have hd : d = (s.device.arrived p).2 := by rw [harr]
        rw [act_look hs harr, hd]
        exact ⟨h.kept.look p, sound_look h.sound hs (by rw [harr])⟩
      · have hmeets : KeepsUpload ok n k base stream d (resume d) :=
          h.sound.resumed hs (.ended harr)
        rw [act_resume hs harr] at hstands ⊢
        exact carrying_settle hmeets hstands

theorem Opens.yields (hchunk : 0 < chunk) {a : Action (Recorded σ) ε} {path : Bytes}
    (hs : s.device.Under (ledger : Custody (Recorded σ) (Ticket φ) (Ticket δ)))
    (h : s.Opens a path) :
    ∃ e p k f t, s.Hears a e p ∧ Volume.key path = .ok k ∧
      e.Yields s.device p (.ok Handler.done) { e with upload := some (.ofFile f) }
        { s.device with store := t } ∧
      Streaming s.device.store.issued k
        (((Backed.volume s.device.store.store).contents? path).getD []) []
        (.ofFile f : WriteSession chunk (Ticket φ)) t := by
  obtain ⟨e, p, hears, hc, hp, haccepts⟩ := h
  obtain ⟨-, f, t, ho, hy⟩ := accepts_openFile hc hp haccepts
  obtain ⟨k, hk, hstream⟩ := begin_upload hchunk hs.store ho
  exact ⟨e, p, k, f, t, hears, hk, hy, hstream⟩

/-- With an open an upload begins, under the number that its handle gets. -/
theorem Opens.carrying (hchunk : 0 < chunk) (hok : Leaves ok) {a : Action (Recorded σ) ε}
    {path : Bytes}
    (hs : s.device.Under (ledger : Custody (Recorded σ) (Ticket φ) (Ticket δ)))
    (h : s.Opens a path) :
    ∃ k, Volume.key path = .ok k ∧
      (s.act a).2.Carrying ok s.device.store.issued k
        (((Backed.volume s.device.store.store).contents? path).getD []) [] := by
  obtain ⟨e, p, k, f, t, hears, hk, hy, hstream⟩ := h.yields hchunk hs
  refine ⟨k, hk, ?_⟩
  have hfile (g : Ticket φ) (hg : s.device.file = some g) : g.number ≠ s.device.store.issued :=
    Nat.ne_of_lt (hs.file g hg)
  have hdevice := hears.act_device hy
  obtain ⟨transport, bytes, hdecode, hact⟩ := hears.act_eq
  have hleft : Left s.device.store.issued k
      (((Backed.volume s.device.store.store).contents? path).getD []) []
      ({ e with upload := some (.ofFile f) } : Endpoint chunk (Ticket φ))
      ({ s.device with store := t } : Device size (Recorded σ) (Ticket φ)) :=
    .inl (.goes _ rfl hstream hfile)
  rw [hact] at hdevice ⊢
  refine carrying_settle (hleft.keepsUpload hok hy hdecode transport) ?_
  unfold Stands
  rw [hdevice]
  exact fun hnone => nomatch (hstream.holds.2.2).symm.trans hnone

/-- As long as the file stands an upload is as it should be. -/
theorem Carrying.after (hok : Leaves ok) (h : s.Carrying ok n k base stream)
    {as : List (Action (Recorded σ) ε)} (has : ∀ x, .aside x ∈ as → ok x)
    (hstands : ∀ bs, bs <+: as → (s.after bs).Stands k) :
    (s.after as).Carrying ok n k base (stream ++ s.stream as) := by
  induction as generalizing s stream with
  | nil => rwa [show s.stream [] = [] from rfl, List.append_nil]
  | cons a as ih =>
    have hfirst : (s.act a).2.Stands k := hstands [a] (List.prefix_append [a] as)
    have hact := h.act hok (fun x hx => has x (hx ▸ List.mem_cons_self)) hfirst
    rw [show s.stream (a :: as) = s.taken a ++ (s.act a).2.stream as from rfl, ← List.append_assoc]
    refine ih hact (fun x hx => has x (List.mem_cons_of_mem a hx)) fun bs hbs => ?_
    exact hstands (a :: bs) (List.prefix_cons_inj a |>.mpr hbs)

end Scene

end PanelLink
