import PanelLink.Proofs.Carrying

/-!
What it takes for a file to go away: a removal of just this file, or a format. No other command does
it, nor anything that happens beside the commands.
-/
namespace PanelLink

open Device

/-! ## The store -/

namespace Volume

variable {v v' : Volume} {k : Key}

def HasFile (v : Volume) (k : Key) : Prop :=
  ∃ contents, v.tree.get? k = some (.file contents)

theorem HasFile.of_tree (h : v.HasFile k) (ht : v'.tree = v.tree) : v'.HasFile k := by
  unfold HasFile
  rwa [ht]

theorem HasFile.spared (h : v.HasFile k) (hs : v.Spares v') : v'.HasFile k := by
  obtain ⟨contents, hc⟩ := h
  exact ⟨contents, hs k contents hc⟩

theorem HasFile.put_file (h : v.HasFile k) (key : Key) (contents : Bytes) :
    (v.put key (.file contents)).HasFile k := by
  have hget : (v.put key (.file contents)).tree.get? k =
      if key = k then some (.file contents) else v.tree.get? k := Tree.get?_insert _ _ _ _
  unfold HasFile
  rw [hget]
  split
  · exact ⟨contents, rfl⟩
  · exact h

/-- A write changes what is in a file, but leaves every file there. -/
theorem HasFile.write (h : v.HasFile k) (f : FileHandle) (data : Bytes) :
    (v.write f data).2.2.HasFile k := by
  have ht := (v.handleFailure_same f.generation).tree
  unfold Volume.write
  rcases hfail : v.handleFailure f.generation with ⟨_ | e, w⟩
  · obtain rfl := eq_of_handleFailure hfail
    dsimp only
    split
    · exact h
    split
    · exact h
    · exact h
    · rename_i body _
      generalize (if f.flags.append then body.length else f.pos) = start
      rw [writtenBody_eq]
      split
      · exact h
      · exact h.put_file _ _
  · rw [hfail] at ht
    exact h.of_tree ht

/-- A removal takes the file away only under its own key. -/
theorem HasFile.remove (h : v.HasFile k) {path : Bytes} (hk : key path ≠ .ok k) :
    (v.remove path).2.HasFile k := by
  obtain ht | ⟨key, hkey, ht⟩ := v.remove_tree path
  · exact h.of_tree ht
  · have hne : k ≠ key := by
      rintro rfl
      exact hk hkey
    unfold HasFile
    rw [ht, Tree.get?_erase, if_neg hne]
    exact h

end Volume

variable {size chunk : Nat} {σ φ δ ε : Type} [FileStore σ φ δ] [Backed σ φ δ]

abbrev standing (k : Key) : Custody σ φ δ :=
  vault (·.HasFile k)

theorem standing_adding {k : Key} : (standing k : Custody σ φ δ).Adding where
  toSparing := vault_sparing fun _ _ hs h => h.spared hs
  openAppending {s} path hs := by
    refine ⟨vault_carries (Volume.HasFile.spared hs ?_), fun _ _ => trivial⟩
    exact (Backed.openFile s path .appending).keeps (Volume.openFile_spares _ path rfl)
  write {s f} data hs _ := by
    refine ⟨vault_carries ?_, trivial⟩
    obtain ⟨m, -, hpass | ⟨-, -, hv⟩⟩ := Backed.write s f data
    · have hv := congrArg (·.2.2) hpass
      have hwrite := Volume.HasFile.write hs (Backed.file σ f) (data.take m)
      rwa [← hv] at hwrite
    · rw [hv]
      exact hs

theorem standing_remove {k : Key} {s : σ} {path : Bytes}
    (hs : (standing k : Custody σ φ δ).store s) (hk : Volume.key path ≠ .ok k) :
    (standing k : Custody σ φ δ).store (FileStore.remove s path).2 := by
  show (Backed.volume (FileStore.remove s path).2).HasFile k
  obtain hpass | ⟨-, hv⟩ := Backed.remove s path
  · have hv := congrArg Prod.snd hpass
    have hremove := Volume.HasFile.remove hs hk
    rwa [← hv] at hremove
  · rw [hv]
    exact hs

/-! ## Requests and runs -/

/-- The request is to remove the file at `path`, or to format the store. -/
def Request.Removes (e : Endpoint chunk φ) (path : Bytes) : Request ε → Prop
  | .frame _ bytes => ∃ p, Packet.decode bytes = .ok p ∧ (p.command = .format ∨
      p.command = .rm ∧ ∃ q, e.pathOf p.payload = .ok q ∧ Volume.key q = Volume.key path)
  | _ => False

namespace Scene

def contents? (s : Scene size chunk σ φ ε) (path : Bytes) : Option Bytes :=
  (Backed.volume s.device.store).contents? path

/-- The action is part of a removal of the file or of a format, and leaves no file. -/
def Removes (s : Scene size chunk σ φ ε) (a : Action σ ε) (path : Bytes) : Prop :=
  (∃ r e d run, s.Advances a r e d run ∧ r.Removes e path) ∧ (s.act a).2.contents? path = none

/-- The run neither removes the file nor formats the store with it. -/
def Spares (s : Scene size chunk σ φ ε) (path : Bytes) (as : List (Action σ ε)) : Prop :=
  ∀ bs b, bs ++ [b] <+: as → ¬ (s.after bs).Removes b path

variable {ok : Aside σ → Prop} {k : Key} {path : Bytes} {s : Scene size chunk σ φ ε}
  {as bs : List (Action σ ε)}

theorem Spares.first {a : Action σ ε} (h : s.Spares path (a :: as)) : ¬ s.Removes a path :=
  h [] a (List.prefix_append [a] as)

theorem Spares.rest {a : Action σ ε} (h : s.Spares path (a :: as)) : (s.act a).2.Spares path as :=
  fun bs b hbs => h (a :: bs) b ((List.prefix_cons_inj a).mpr hbs)

theorem Spares.before (h : s.Spares path as) (hbs : bs <+: as) : s.Spares path bs :=
  fun cs c hcs => h cs c (hcs.trans hbs)

/-- A run with the file there all the time does not remove it. -/
theorem spares_of_contents (h : ∀ bs, bs <+: as → (s.after bs).contents? path ≠ none) :
    s.Spares path as := by
  rintro bs b hbs ⟨-, hnone⟩
  refine h (bs ++ [b]) hbs ?_
  rwa [after_append]

/-- The file is there, and it stays as long as no request removes it. -/
structure Standing (ok : Aside σ → Prop) (path : Bytes) (k : Key) (s : Scene size chunk σ φ ε) :
    Prop where
  under : s.device.Under (standing k)
  sound : s.Sound ok (fun _ d => d.Under (standing k))
    (fun e r _ _ w => r.Removes e path ∨ w.Under (standing k))
    (fun e r _ _ w => r.Removes e path ∨ w.Under (standing k))

theorem contents?_ne_none (hk : Volume.key path = .ok k) :
    s.contents? path ≠ none ↔ (standing k : Custody σ φ δ).store s.device.store := by
  show _ ↔ (Backed.volume s.device.store).HasFile k
  unfold contents? Volume.contents? Volume.HasFile
  rw [hk]
  dsimp only
  split
  · rename_i body hc
    obtain ⟨contents, rfl⟩ := body.exists_ofBytes
    exact ⟨fun _ => ⟨contents, hc⟩, fun _ => nofun⟩
  · rename_i hn
    exact ⟨fun hsome => (hsome rfl).elim, fun ⟨contents, hc⟩ => (hn (.ofBytes contents) hc).elim⟩

theorem Entrusted.stands (h : s.Entrusted ok (standing k)) : s.Standing ok path k where
  under := h.under
  sound := h.sound.imp (fun _ _ hr => hr.2) (fun _ _ _ _ _ hT => .inr hT)
    fun _ _ _ _ _ hQ => .inr hQ.2

section

variable (hok : ∀ change s, ok (.alter change) → (standing k : Custody σ φ δ).store s →
    (standing k : Custody σ φ δ).Carries s (change s)) (hk : Volume.key path = .ok k)
include hok hk

/-- Any other request leaves the file there. -/
theorem standing_routine {e : Endpoint chunk φ} {r : Request ε} (hr : ¬ r.Removes e path)
    {d : Device size σ φ} (hd : d.Under (standing k)) :
    (r.routine e d).Meets (Resumes ok) (fun _ _ w => w.Under (standing k))
      (fun _ _ w => w.Under (standing k)) d := by
  -- Whether a removal is of this file depends on the working directory, so it is not one of the
  -- commands that keep the custody anywhere.
  by_cases hrm : ∃ transport bytes p, r = .frame transport bytes ∧ Packet.decode bytes = .ok p ∧
      p.command = .rm
  · obtain ⟨transport, bytes, p, rfl, hp, hc⟩ := hrm
    have hkeep {w : Device size σ φ} (hw : w.Under (standing k)) {v : Device size σ φ}
        (hv : Resumes ok .delivery w v) : v.Under (standing k) :=
      (standing_adding.toReading.resumes hok hw hv).under
    obtain ⟨result, hy | ⟨q, hq, hy⟩⟩ := yields_rm (e := e) (d := d) hc
    · exact hy.meets (P := fun _ w => w.Under (standing k)) hp hd hd fun _ hw => hkeep hd hw
    · have hne : Volume.key q ≠ .ok k := fun hqk =>
        hr ⟨p, hp, .inr ⟨hc, q, hq, hqk.trans hk.symm⟩⟩
      have hw : ({ d with store := (FileStore.remove d.store q).2 } : Device size σ φ).Under
          (standing k) := ⟨standing_remove hd.store hne, fun _ _ => trivial⟩
      exact hy.meets (P := fun _ w => w.Under (standing k)) hp hw hw fun _ hv => hkeep hw hv
  · refine (standing_adding.routine hok (fun _ _ _ _ _ hw => hw) e r (fun _ _ => trivial) hd
      fun transport bytes p hframe hp => ?_).imp fun _ _ _ h => h.2
    refine standing_adding.execute hok (fun _ _ _ _ _ hw => hw) p ?_ ?_
    · exact fun hc => hrm ⟨transport, bytes, p, hframe, hp, hc⟩
    · intro hc
      subst hframe
      exact hr ⟨p, hp, .inl hc⟩

theorem Standing.act (h : s.Standing ok path k) {a : Action σ ε}
    (ha : ∀ x, a = .aside x → ok x) (hr : ¬ s.Removes a path) :
    (s.act a).2.Standing ok path k := by
  have haside {d : Device size σ φ} (hd : d.Under (standing k)) {x : Aside σ} (hx : ok x) :
      (x.apply d).2.Under (standing k) := by
    refine (standing_adding.toReading.aside hd ?_).under
    rintro change rfl
    exact hok change d.store hx hd.store
  have hmeets (r : Request ε) (e : Endpoint chunk φ) (d : Device size σ φ)
      (hd : d.Under (standing k)) :
      (r.routine e d).Meets (Resumes ok)
        (fun _ _ w => r.Removes e path ∨ w.Under (standing k))
        (fun _ _ w => r.Removes e path ∨ w.Under (standing k)) d := by
    by_cases hremoves : r.Removes e path
    · exact Run.meets_of_forall (fun _ _ _ => .inl hremoves) (fun _ _ _ => .inl hremoves) _ _
    · exact ((standing_routine hok hk hremoves hd).imp fun _ _ _ hw => .inr hw).mono
        fun _ _ _ hw => .inr hw
  obtain ⟨x, rfl⟩ | ⟨r, e, d, run, hadv⟩ | ⟨-, hs | ⟨r, e, p, resume, hs, hp, hact⟩⟩ :=
    s.act_cases a
  · have hx := ha x rfl
    exact ⟨haside h.under hx, sound_aside h.sound hx fun _ _ hd => haside hd hx⟩
  · have hrun := h.sound.meets hmeets hadv
    -- What the stretch leaves is there, since a removal that took it away is ruled out.
    have hthere (hd : r.Removes e path ∨ (s.act a).2.device.Under (standing k)) :
        (s.act a).2.device.Under (standing k) := by
      obtain hremoves | hd := hd
      · have hcontents : (s.act a).2.contents? path ≠ none :=
          fun hnone => hr ⟨⟨r, e, d, run, hadv, hremoves⟩, hnone⟩
        exact ⟨(contents?_ne_none hk).mp hcontents, fun _ _ => trivial⟩
      · exact hd
    rw [hadv.act_eq] at hthere ⊢
    cases run with
    | done x w => exact ⟨hthere hrun, hthere hrun⟩
    | paused p w resume => exact ⟨hthere hrun.1, hrun.2⟩
  · rwa [hs]
  · rw [hact]
    exact ⟨(standing_adding.toReading.look h.under p).under, sound_look h.sound hs hp⟩

theorem Standing.after (h : s.Standing ok path k) (has : ∀ x, .aside x ∈ as → ok x)
    (hspares : s.Spares path as) : (s.after as).Standing ok path k := by
  induction as generalizing s with
  | nil => exact h
  | cons a as ih =>
    have hact := h.act hok hk (fun x hx => has x (hx ▸ List.mem_cons_self)) hspares.first
    exact ih hact (fun x hx => has x (List.mem_cons_of_mem a hx)) hspares.rest

end

end Scene

/-! ## The file of an upload -/

theorem Leaves.standing {ok : Aside (Recorded σ) → Prop} (hok : Leaves ok) {k : Key}
    (change : Recorded σ → Recorded σ) (r : Recorded σ) (ha : ok (.alter change))
    (hr : (PanelLink.standing k : Custody (Recorded σ) (Ticket φ) (Ticket δ)).store r) :
    (PanelLink.standing k : Custody (Recorded σ) (Ticket φ) (Ticket δ)).Carries r (change r) := by
  obtain ⟨-, -, htree⟩ := hok change r ha
  exact vault_carries (Volume.HasFile.of_tree hr htree)

namespace Scene

variable {s : Scene size chunk (Recorded σ) (Ticket φ) ε} {ok : Aside (Recorded σ) → Prop}
  {a : Action (Recorded σ) ε} {as : List (Action (Recorded σ) ε)} {path : Bytes}

/-- After any run that does not remove its file an upload is as it should be. -/
theorem Opens.after (hchunk : 0 < chunk) (hok : Leaves ok)
    (hs : s.device.Under (Recorded.ledger : Custody (Recorded σ) (Ticket φ) (Ticket δ)))
    (h : s.Opens a path) (has : ∀ x, .aside x ∈ as → ok x) (hspares : (s.act a).2.Spares path as) :
    ∃ k, Volume.key path = .ok k ∧ ((s.act a).2.after as).contents? path ≠ none ∧
      ((s.act a).2.after as).Carrying ok s.device.store.issued k ((s.contents? path).getD [])
        ((s.act a).2.stream as) := by
  obtain ⟨e, p, k, f, t, hears, hk, hy, hstream⟩ := h.yields hchunk hs
  have hthere : (s.act a).2.Standing ok path k := by
    refine (hears.entrusted standing_adding.toReading hok.standing hy ?_ ?_).stands
    · exact fun _ _ => trivial
    · exact ⟨⟨_, hstream.holds.2.2⟩, fun _ _ => trivial⟩
  have hstands {bs : List (Action (Recorded σ) ε)} (hbs : bs <+: as) :
      ((s.act a).2.after bs).contents? path ≠ none := by
    have hasides (x : Aside (Recorded σ)) (hx : .aside x ∈ bs) : ok x := has x (hbs.subset hx)
    have hafter := hthere.after hok.standing hk hasides (hspares.before hbs)
    exact (contents?_ne_none hk).mpr hafter.under.store
  obtain ⟨k', hk', hfirst⟩ := h.carrying hchunk hok hs
  obtain rfl := Except.ok.inj (hk.symm.trans hk')
  refine ⟨k, hk, hstands (List.prefix_refl as), hfirst.after hok has fun bs hbs => ?_⟩
  obtain ⟨contents, hc⟩ := (contents?_ne_none hk).mp (hstands hbs)
  exact fun hnone => nomatch hc.symm.trans hnone

end Scene

end PanelLink
