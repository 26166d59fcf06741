import PanelLink.Proofs.Alike
import PanelLink.Proofs.Twins

/-!
What the host is told does not depend on the tasks. Two schedules with the same requests, each of
which is answered, differ in nothing that a command says, shows or leaves.
-/
namespace PanelLink

open Device

variable {size chunk : Nat} {σ φ δ ε : Type}

/-! ## What a schedule asks for, and what comes of it -/

/-- A frame, a stop, or an aside of the tasks. -/
def Action.Ordinary : Action σ ε → Prop
  | aside a => a.OfTasks
  | request r => r.Ordinary
  | resume => True

def Action.request? : Action σ ε → Option (Request ε)
  | request r => some r
  | aside _ | resume => none

def Event.answer? : Event ε → Option (Answer ε)
  | answered a => some a
  | quiet | ticked _ => none

def requests (as : List (Action σ ε)) : List (Request ε) :=
  as.filterMap Action.request?

theorem requests_cons (a : Action σ ε) (as : List (Action σ ε)) :
    requests (a :: as) = a.request?.toList ++ requests as := by
  unfold requests
  rw [List.filterMap_cons]
  cases a.request? with
  | none => rfl
  | some r => rfl

namespace Scene

def owed (s : Scene size chunk σ φ ε) : Nat :=
  match s.hand with
  | .free _ => 0
  | .busy .. => 1

theorem owed_free {s : Scene size chunk σ φ ε} {e : Endpoint chunk φ} (h : s.hand = .free e) :
    s.owed = 0 := by
  unfold owed
  rw [h]

theorem owed_busy {s : Scene size chunk σ φ ε} {r e p k} (h : s.hand = .busy r e p k) :
    s.owed = 1 := by
  unfold owed
  rw [h]

variable [FileStore σ φ δ]

/-- The answers to the requests among some actions. -/
def answers (s : Scene size chunk σ φ ε) (as : List (Action σ ε)) : List (Answer ε) :=
  (s.events as).filterMap Event.answer?

/-- The frames that a command shows with an action. What a tick shows is not of a command. -/
def paints (s : Scene size chunk σ φ ε) : Action σ ε → List Bytes
  | .aside _ => []
  | .request r => (s.act (.request r)).2.device.display.frames.drop s.device.display.frames.length
  | .resume => (s.act .resume).2.device.display.frames.drop s.device.display.frames.length

def painted (s : Scene size chunk σ φ ε) : List (Action σ ε) → List Bytes
  | [] => []
  | a :: as => s.paints a ++ (s.act a).2.painted as

variable {s t : Scene size chunk σ φ ε} {a b : Action σ ε} {as bs : List (Action σ ε)}

theorem answers_cons (s : Scene size chunk σ φ ε) (a : Action σ ε) (as : List (Action σ ε)) :
    s.answers (a :: as) = (s.act a).1.answer?.toList ++ (s.act a).2.answers as := by
  show ((s.act a).1 :: (s.act a).2.events as).filterMap Event.answer? = _
  rw [List.filterMap_cons]
  cases (s.act a).1.answer? with
  | none => rfl
  | some x => rfl

/-! ## Every request is answered -/

/-- Every request of the run is answered, with the one that was in hand before. -/
def Serves (s : Scene size chunk σ φ ε) (as : List (Action σ ε)) : Prop :=
  (s.answers as).length = (requests as).length + s.owed

theorem settle_owed (r : Request ε) (e : Endpoint chunk φ)
    (run : Run (Device size σ φ) (Answer ε × Endpoint chunk φ)) :
    (settle r e run).1.answer?.toList.length + (settle r e run).2.owed = 1 := by
  cases run with
  | done x w => rfl
  | paused p w k => rfl

theorem Advances.request?_eq {r e d run} (h : s.Advances a r e d run) :
    a.request? = if s.owed = 0 then some r else none := by
  cases h with
  | request hs =>
    rw [owed_free hs]
    rfl
  | resume hs _ =>
    rw [owed_busy hs]
    rfl

theorem Advances.requests_cons {r e d run} (h : s.Advances a r e d run)
    (as : List (Action σ ε)) :
    requests (a :: as) = (if s.owed = 0 then [r] else []) ++ requests as := by
  rw [PanelLink.requests_cons, h.request?_eq]
  split
  · rfl
  · rfl

/-- Nothing is answered that was not asked for. -/
theorem act_owed (s : Scene size chunk σ φ ε) (a : Action σ ε) :
    (s.act a).1.answer?.toList.length + (s.act a).2.owed ≤ a.request?.toList.length + s.owed := by
  have hquiet (h : (s.act a).1.answer? = none) (ho : (s.act a).2.owed = s.owed) :
      (s.act a).1.answer?.toList.length + (s.act a).2.owed ≤
        a.request?.toList.length + s.owed := by
    rw [h, ho]
    exact Nat.add_le_add_right (Nat.zero_le _) _
  obtain ⟨x, rfl⟩ | ⟨r, e, d, run, h⟩ | ⟨hq, h | ⟨r, e, p, k, -, -, h⟩⟩ := s.act_cases a
  · have hanswer : (s.act (.aside x)).1.answer? = none := by
      show ((x.apply s.device).1.elim .quiet .ticked : Event ε).answer? = none
      cases (x.apply s.device).1 with
      | none => rfl
      | some tick => rfl
    exact hquiet hanswer rfl
  · rw [h.act_eq, settle_owed, h.request?_eq]
    rcases hs : s.hand with e | ⟨r', e, p, k⟩
    · rw [owed_free hs]
      exact Nat.le_refl 1
    · rw [owed_busy hs]
      exact Nat.le_refl 1
  · exact hquiet (by rw [hq]; rfl) (by rw [h])
  · exact hquiet (by rw [hq]; rfl) (by rw [h]; rfl)

private theorem answers_le (s : Scene size chunk σ φ ε) (as : List (Action σ ε)) :
    (s.answers as).length ≤ (requests as).length + s.owed := by
  induction as generalizing s with
  | nil => exact Nat.zero_le _
  | cons a as ih =>
    have hstep := s.act_owed a
    have hrest := ih (s.act a).2
    rw [answers_cons, requests_cons, List.length_append, List.length_append]
    omega

def Idle (s : Scene size chunk σ φ ε) : Action σ ε → Prop
  | .aside a => a.OfTasks
  | .request _ => False
  | .resume => ∀ r e p k, s.hand = .busy r e p k → (s.device.arrived p).1 = false

/-- In a run whose requests are all answered, none comes while another is in hand. -/
theorem Serves.step (ha : a.Ordinary) (h : s.Serves (a :: as)) :
    (s.act a).2.Serves as ∧ (s.Idle a ∨ ∃ r e d run, s.Advances a r e d run) := by
  have hstep := s.act_owed a
  have hrest := (s.act a).2.answers_le as
  unfold Serves at h
  rw [answers_cons, requests_cons, List.length_append, List.length_append] at h
  constructor
  · unfold Serves
    omega
  cases a with
  | aside x => exact .inl ha
  | request r =>
    rcases hs : s.hand with e | ⟨r', e, p, k⟩
    · exact .inr ⟨r, e, _, _, .request hs⟩
    · have hlost : (s.act (.request r)).1.answer?.toList.length = 0 := by
        rw [act_request_busy hs]
        rfl
      have hsame : (s.act (.request r)).2 = s := by rw [act_request_busy hs]
      have hasked : (Action.request r : Action σ ε).request?.toList.length = 1 := rfl
      rw [hsame] at hrest
      rw [hsame] at h
      omega
  | resume =>
    rcases hs : s.hand with e | ⟨r, e, p, k⟩
    · apply Or.inl
      intro r e' p k hk
      rw [hs] at hk
      cases hk
    · rcases hp : s.device.arrived p with ⟨_ | _, d⟩
      · apply Or.inl
        intro r' e' p' k' hk
        rw [hs] at hk
        cases hk
        rw [hp]
      · exact .inr ⟨r, e, d, _, .resume hs hp⟩

theorem Serves.owed_nil (h : s.Serves []) : s.owed = 0 := by
  have hnone : 0 = 0 + s.owed := h
  omega

/-! ## Two scenes -/

abbrev Drifted (L : Likeness σ φ δ) (s t : Scene size chunk σ φ ε) : Prop :=
  Abreast L Tasked (fun _ => SamePaint) Matched s t

variable {L : Likeness σ φ δ}

theorem Drifted.owed_eq (h : Drifted L s t) : s.owed = t.owed := by
  cases h with
  | free hs ht _ _ _ => rw [owed_free hs, owed_free ht]
  | busy hs ht _ _ => rw [owed_busy hs, owed_busy ht]

/-- How an idle action leaves a scene. -/
theorem Idle.cases (h : s.Idle a) :
    (∃ x, a = .aside x ∧ x.OfTasks) ∨ (a = .resume ∧ s.act a = (.quiet, s)) ∨
    (∃ r e p k, a = .resume ∧ s.hand = .busy r e p k ∧
      s.device.arrived p = (false, (s.device.arrived p).2) ∧
      s.act a = (.quiet, { s with device := (s.device.arrived p).2 })) := by
  cases a with
  | aside x => exact .inl ⟨x, rfl, h⟩
  | request r => exact h.elim
  | resume =>
    rcases hs : s.hand with e | ⟨r, e, p, k⟩
    · exact .inr (.inl ⟨rfl, act_resume_free hs⟩)
    · have hp : s.device.arrived p = (false, (s.device.arrived p).2) :=
        Prod.ext (h r e p k hs) rfl
      exact .inr (.inr ⟨r, e, p, k, rfl, rfl, hp, by rw [act_look hs hp, hs]⟩)

theorem Idle.skip (h : s.Idle a) (as : List (Action σ ε)) :
    requests (a :: as) = requests as ∧ s.answers (a :: as) = (s.act a).2.answers as ∧
      s.painted (a :: as) = (s.act a).2.painted as := by
  suffices hsilent : a.request? = none ∧ (s.act a).1.answer? = none ∧ s.paints a = [] by
    obtain ⟨hrequest, hanswer, hpaints⟩ := hsilent
    refine ⟨?_, ?_, ?_⟩
    · rw [requests_cons, hrequest]
      rfl
    · rw [answers_cons, hanswer]
      rfl
    · show s.paints a ++ (s.act a).2.painted as = _
      rw [hpaints]
      rfl
  obtain ⟨x, rfl, -⟩ | ⟨rfl, hact⟩ | ⟨r, e, p, k, rfl, -, -, hact⟩ := h.cases
  · have hanswer : ((x.apply s.device).1.elim .quiet .ticked : Event ε).answer? = none := by
      cases (x.apply s.device).1 with
      | none => rfl
      | some tick => rfl
    exact ⟨rfl, hanswer, rfl⟩
  · have hpaints : s.paints .resume = [] := by
      unfold paints
      rw [hact]
      exact List.drop_length
    exact ⟨rfl, by rw [hact]; rfl, hpaints⟩
  · have hdisplay : (s.device.arrived p).2.display = s.device.display := by
      obtain hd | ⟨-, hd⟩ := s.device.arrived_eq p
      · rw [hd]
      · rw [hd]
    have hpaints : s.paints .resume = [] := by
      unfold paints
      rw [hact, hdisplay]
      exact List.drop_length
    exact ⟨rfl, by rw [hact]; rfl, hpaints⟩

theorem Idle.hand_eq (h : s.Idle a) : (s.act a).2.hand = s.hand := by
  obtain ⟨x, rfl, -⟩ | ⟨-, hact⟩ | ⟨r, e, p, k, -, -, -, hact⟩ := h.cases
  · rfl
  · rw [hact]
  · rw [hact]

theorem Idle.resumes (h : s.Idle a) {r e p k} (hs : s.hand = .busy r e p k) {u : Device size σ φ}
    (hu : Resumes Aside.OfTasks p (s.act a).2.device u) :
    Resumes Aside.OfTasks p s.device u := by
  obtain ⟨x, rfl, hx⟩ | ⟨-, hact⟩ | ⟨r', e', p', k', -, hs', hp, hact⟩ := h.cases
  · exact .aside x hx hu
  · rwa [hact] at hu
  · rw [hact] at hu
    rw [hs] at hs'
    cases hs'
    exact .look hp hu

theorem Idle.store_left (h : s.Idle a) (hT : L.Tolerant) {x : σ} (hx : L.store s.device.store x) :
    L.store (s.act a).2.device.store x := by
  obtain ⟨y, rfl, hy⟩ | ⟨-, hact⟩ | ⟨r, e, p, k, -, -, -, hact⟩ := h.cases
  · exact hT.aside_left hy hx
  · rwa [hact]
  · rw [hact]
    show L.store (s.device.arrived p).2.store x
    rwa [arrived_store]

theorem Idle.store_right (h : s.Idle a) (hT : L.Tolerant) {x : σ} (hx : L.store x s.device.store) :
    L.store x (s.act a).2.device.store := by
  obtain ⟨y, rfl, hy⟩ | ⟨-, hact⟩ | ⟨r, e, p, k, -, -, -, hact⟩ := h.cases
  · exact hT.aside_right hy hx
  · rwa [hact]
  · rw [hact]
    show L.store x (s.device.arrived p).2.store
    rwa [arrived_store]

section

variable [Backed σ φ δ]

theorem Idle.drift (h : s.Idle a) {n : Nat} (hd : s.device.Poised n) :
    Drift n s.device (s.act a).2.device := by
  obtain ⟨x, rfl, hx⟩ | ⟨-, hact⟩ | ⟨r, e, p, k, -, -, -, hact⟩ := h.cases
  · exact hd.aside hx
  · rw [hact]
    exact hd.drift
  · rw [hact]
    exact hd.look p

theorem Drifted.idle_left (hT : L.Tolerant) (h : Drifted L s t) (ha : s.Idle a) :
    Drifted L (s.act a).2 t := by
  cases h with
  | free hs ht hpeers hmatched hstore =>
    have htwins := hmatched.1.drift (ha.drift hmatched.1.left) hmatched.1.right.drift
    exact .free (ha.hand_eq.trans hs) ht hpeers ⟨htwins, .refl _ _⟩ (ha.store_left hT hstore)
  | busy hs ht _ hrun =>
    refine .busy (ha.hand_eq.trans hs) ht (.refl _ _) ?_
    intro u u' hu
    exact hrun u u' ⟨ha.resumes hs hu.1, hu.2⟩

theorem Drifted.idle_right (hT : L.Tolerant) (h : Drifted L s t) (hb : t.Idle b) :
    Drifted L s (t.act b).2 := by
  cases h with
  | free hs ht hpeers hmatched hstore =>
    have htwins := hmatched.1.drift hmatched.1.left.drift (hb.drift hmatched.1.right)
    exact .free hs (hb.hand_eq.trans ht) hpeers ⟨htwins, .refl _ _⟩ (hb.store_right hT hstore)
  | busy hs ht _ hrun =>
    refine .busy hs (hb.hand_eq.trans ht) (.refl _ _) ?_
    intro u u' hu
    exact hrun u u' ⟨hu.1, hb.resumes ht hu.2⟩

omit [Backed σ φ δ] in
private theorem Advances.paints_eq {r e d run} (h : s.Advances a r e d run) :
    s.paints a =
      (settle r e run).2.device.display.frames.drop d.display.frames.length := by
  obtain ⟨-, -, -, hdisplay, -⟩ := h.device_eq
  rw [hdisplay, ← h.act_eq]
  cases h with
  | request _ => rfl
  | resume _ _ => rfl

/-- Where both scenes go on with the same request they have the same events and show the same. -/
theorem Drifted.advance (hL : L.Lawful) (hT : L.Tolerant) (h : Drifted L s t) {r e d run}
    {r' e' d' run'} (hs : s.Advances a r e d run) (ht : t.Advances b r' e' d' run')
    (ha : a.Ordinary) (hsame : a.request? = b.request?) :
    (s.act a).1 = (t.act b).1 ∧ s.paints a = t.paints b ∧
      Drifted L (s.act a).2 (t.act b).2 := by
  have hrun : run.Tandem Tasked (fun _ => SamePaint) (L.Outcome Matched) d d' run' := by
    cases h with
    | free hs' ht' hpeers hmatched hstore =>
      cases hs with
      | resume hk _ =>
        rw [hs'] at hk
        cases hk
      | request hk =>
        cases ht with
        | resume hk' _ =>
          rw [ht'] at hk'
          cases hk'
        | request hk' =>
          rw [hs'] at hk
          rw [ht'] at hk'
          cases hk
          cases hk'
          obtain rfl : r = r' := Option.some.inj hsame
          exact (Likeness.twins_keepsScreens hL hT).routine hL hpeers ha hmatched hstore
    | busy hs' ht' _ hrun =>
      cases hs with
      | request hk =>
        rw [hs'] at hk
        cases hk
      | resume hk hp =>
        cases ht with
        | request hk' =>
          rw [ht'] at hk'
          cases hk'
        | resume hk' hp' =>
          rw [hs'] at hk
          rw [ht'] at hk'
          cases hk
          cases hk'
          exact hrun d d' ⟨.ended hp, .ended hp'⟩
  obtain ⟨hevent, ⟨frames, hw, hw'⟩, hnext⟩ := settle_abreast
    (D := SamePaint d d') (fun _ w w' h => ⟨h, .refl w w'⟩) (fun _ w w' h => ⟨h.2, h.1, .refl w w'⟩)
    hrun r r' e e'
  have hpaints : s.paints a = t.paints b := by
    rw [hs.paints_eq, ht.paints_eq, hw, hw', List.drop_left, List.drop_left]
  rw [hs.act_eq, ht.act_eq]
  exact ⟨hevent, hpaints, hnext⟩

/-- Two runs with the same requests say and show the same, and end as they began. -/
theorem Drifted.agree (hL : L.Lawful) (hT : L.Tolerant) (h : Drifted L s t)
    (has : ∀ a ∈ as, a.Ordinary) (hbs : ∀ b ∈ bs, b.Ordinary) (hs : s.Serves as)
    (ht : t.Serves bs) (hsame : requests as = requests bs) :
    s.answers as = t.answers bs ∧ s.painted as = t.painted bs ∧
      (s.after as).owed = 0 ∧ Drifted L (s.after as) (t.after bs) := by
  -- By the length of both runs. Idle actions come first, so that the sides go on together.
  induction hn : as.length + bs.length using Nat.strongRecOn generalizing s t as bs with
  | _ n ih =>
  subst hn
  by_cases hleft : ∃ a as', as = a :: as' ∧ s.Idle a
  · obtain ⟨a, as, rfl, ha⟩ := hleft
    obtain ⟨hord, has⟩ := List.forall_mem_cons.mp has
    obtain ⟨hrequests, hanswers, hpainted⟩ := ha.skip as
    have hless : as.length + bs.length < (a :: as).length + bs.length := by
      rw [List.length_cons]
      omega
    rw [hanswers, hpainted]
    rw [hrequests] at hsame
    exact ih _ hless (h.idle_left hT ha) has hbs (hs.step hord).1 ht hsame rfl
  by_cases hright : ∃ b bs', bs = b :: bs' ∧ t.Idle b
  · obtain ⟨b, bs, rfl, hb⟩ := hright
    obtain ⟨hord, hbs⟩ := List.forall_mem_cons.mp hbs
    obtain ⟨hrequests, hanswers, hpainted⟩ := hb.skip bs
    have hless : as.length + bs.length < as.length + (b :: bs).length := by
      rw [List.length_cons]
      omega
    rw [hanswers, hpainted]
    rw [hrequests] at hsame
    exact ih _ hless (h.idle_right hT hb) has hbs hs (ht.step hord).1 hsame rfl
  have howed := h.owed_eq
  cases as with
  | nil =>
    cases bs with
    | nil => exact ⟨rfl, rfl, hs.owed_nil, h⟩
    | cons b bs =>
      obtain ⟨-, hb | ⟨r, e, d, run, hb⟩⟩ := ht.step (hbs b List.mem_cons_self)
      · exact absurd ⟨b, bs, rfl, hb⟩ hright
      · rw [hb.requests_cons, ← howed, hs.owed_nil] at hsame
        cases hsame
  | cons a as =>
    obtain ⟨hord, has⟩ := List.forall_mem_cons.mp has
    obtain ⟨hs', ha | ⟨r, e, d, run, ha⟩⟩ := hs.step hord
    · exact absurd ⟨a, as, rfl, ha⟩ hleft
    cases bs with
    | nil =>
      rw [ha.requests_cons, howed, ht.owed_nil] at hsame
      cases hsame
    | cons b bs =>
      obtain ⟨hord', hbs⟩ := List.forall_mem_cons.mp hbs
      obtain ⟨ht', hb | ⟨r', e', d', run', hb⟩⟩ := ht.step hord'
      · exact absurd ⟨b, bs, rfl, hb⟩ hright
      have hboth : a.request? = b.request? ∧ requests as = requests bs := by
        rw [ha.requests_cons, hb.requests_cons, howed] at hsame
        rw [ha.request?_eq, hb.request?_eq, howed]
        by_cases hfree : t.owed = 0
        · rw [if_pos hfree, if_pos hfree] at hsame
          rw [if_pos hfree, if_pos hfree]
          obtain ⟨rfl, hrest⟩ := List.cons.inj hsame
          exact ⟨rfl, hrest⟩
        · rw [if_neg hfree, if_neg hfree] at hsame
          rw [if_neg hfree, if_neg hfree]
          exact ⟨rfl, hsame⟩
      obtain ⟨hrequest, hsame⟩ := hboth
      obtain ⟨hevent, hpaints, hnext⟩ := h.advance hL hT ha hb hord hrequest
      have hless : as.length + bs.length < (a :: as).length + (b :: bs).length := by
        rw [List.length_cons, List.length_cons]
        omega
      obtain ⟨hanswers, hpainted, hrest⟩ := ih _ hless hnext has hbs hs' ht' hsame rfl
      refine ⟨?_, ?_, hrest⟩
      · rw [answers_cons, answers_cons, hevent, hanswers]
      · show s.paints a ++ (s.act a).2.painted as = t.paints b ++ (t.act b).2.painted bs
        rw [hpaints, hpainted]

end

end Scene

/-! ## Two runs from the start -/

/-- Endpoints that correspond on volumes with the same formats are the same. -/
theorem Volume.peers_eq {e e' : Endpoint chunk FileHandle} (h : (Volume.alike 0).Peers e e') :
    e = e' := by
  have hfile {f g : FileHandle} (hf : (Volume.alike 0).file f g) : f = g := by
    rw [← f.ahead_zero]
    exact hf.symm
  have hsession {w u : WriteSession chunk FileHandle} (hw : (Volume.alike 0).Upload w u) :
      w = u := by
    obtain ⟨f, chunk, id⟩ := w
    obtain ⟨g, chunk', id'⟩ := u
    obtain ⟨hf, hchunk, hid⟩ := hw
    obtain rfl : f = g := hfile hf
    obtain rfl : chunk = chunk' := hchunk
    obtain rfl : id = id' := hid
    rfl
  obtain ⟨config, cwd, upload, cursor, clock⟩ := e
  obtain ⟨config', cwd', upload', cursor', clock'⟩ := e'
  obtain ⟨hconfig, hcwd, hupload, hcursor, hclock⟩ := h
  obtain rfl : config = config' := hconfig
  obtain rfl : cwd = cwd' := hcwd
  obtain rfl : cursor = cursor' := hcursor
  obtain rfl : clock = clock' := hclock
  cases hupload with
  | none => rfl
  | some hw =>
    obtain rfl := hsession hw
    rfl

namespace Scene

theorem Drifted.initial (config : Config) (timing timing' : Timing) (store : Volume) :
    Drifted (Volume.alike 0)
      (Scene.initial config timing store : Scene size chunk Volume FileHandle ε)
      (Scene.initial config timing' store) :=
  .free rfl rfl ⟨rfl, rfl, .none, rfl, rfl⟩
    ⟨⟨.initial timing store, .initial timing' store, rfl, rfl, rfl⟩, .refl _ _⟩ (.refl store)

/-- The schedule does not matter. Two runs of a device and its endpoint get the same frames and the
same stops in the same order, and each of them is answered; when the loader is polled and the frame
timer ticks, between the commands and in their pauses, is up to either run. Then the answers with
their replies and the frames that the commands show are the same. In the end so is the endpoint,
with its directory, upload, cursor and clock, and the volume but for the counts of its reads; and as
many images were let go of. -/
theorem schedules_agree (config : Config) (timing timing' : Timing) (store : Volume)
    {as bs : List (Action Volume ε)} (has : ∀ a ∈ as, a.Ordinary) (hbs : ∀ b ∈ bs, b.Ordinary)
    (hsame : requests as = requests bs) :
    let s : Scene size chunk Volume FileHandle ε := initial config timing store
    let t : Scene size chunk Volume FileHandle ε := initial config timing' store
    (s.answers as).length = (requests as).length → (t.answers bs).length = (requests bs).length →
    s.answers as = t.answers bs ∧ s.painted as = t.painted bs ∧
      (∃ e, (s.after as).hand = .free e ∧ (t.after bs).hand = .free e) ∧
      (s.after as).device.store.Alike 0 (t.after bs).device.store ∧
      (s.after as).device.display.releases = (t.after bs).device.display.releases := by
  intro s t hs ht
  have hstart : Drifted (Volume.alike 0) s t := .initial config timing timing' store
  obtain ⟨hanswers, hpainted, howed, hend⟩ :=
    hstart.agree Volume.alike_lawful Volume.alike_tolerant has hbs hs ht hsame
  cases hend with
  | @free e e' hs' ht' hpeers hmatched hstore =>
    obtain rfl : e = e' := Volume.peers_eq hpeers
    exact ⟨hanswers, hpainted, ⟨e, hs', ht'⟩, hstore, hmatched.1.releases⟩
  | busy hs' _ _ _ =>
    rw [owed_busy hs'] at howed
    cases howed

/-- An animation is stored, begun, and stopped for a row of pixels; one run lets it play and makes
the stop wait, the other leaves it no time at all. -/
theorem pixels_after_animation :
    let frame (command : Command) (id : UInt32) (payload : Bytes) : Action Volume Unit :=
      .request (.frame .instant (Packet.frame ⟨command, id, payload⟩))
    let path := Bytes.ofText "a.araw"
    let upload := [frame .openFile 0 path, frame .writeFile 1 [1, 2, 3, 4], frame .closeFile 2 []]
    let begin := frame .chooseImage 3 path
    let paint := frame .writeDisplay 4 [9, 9, 9]
    let play := [.aside .poll, .aside .timer, .aside .tick, .aside .poll, .aside .tick]
    let wait := [.resume, .aside .poll, .aside .tick, .resume]
    let as := upload ++ begin :: play ++ paint :: wait ++ [.request .stop]
    let bs := upload ++ begin :: paint :: [.aside .poll, .resume, .request .stop, .aside .tick]
    let s : Scene 2 2 Volume FileHandle Unit := initial {} ⟨1, 1⟩ (Volume.fresh 1 8)
    s.shown as = [0, 1] ∧ s.shown bs = [] ∧ s.painted as = [[9, 9]] ∧
      s.answers as = s.answers bs ∧ s.painted as = s.painted bs ∧
      (∃ e, (s.after as).hand = .free e ∧ (s.after bs).hand = .free e) ∧
      (s.after as).device.store.Alike 0 (s.after bs).device.store ∧
      (s.after as).device.display.releases = (s.after bs).device.display.releases := by
  intro frame path upload begin paint play wait as bs s
  have has : ∀ a ∈ as, a.Ordinary := by
    simp only [as, upload, begin, play, paint, wait, frame, List.cons_append, List.nil_append,
      List.forall_mem_cons]
    simp [Action.Ordinary, Request.Ordinary, Aside.OfTasks]
  have hbs : ∀ b ∈ bs, b.Ordinary := by
    simp only [bs, upload, begin, paint, frame, List.cons_append, List.nil_append,
      List.forall_mem_cons]
    simp [Action.Ordinary, Request.Ordinary, Aside.OfTasks]
  have hsame : requests as = requests bs := rfl
  have hserved : (s.answers as).length = (requests as).length := by decide +kernel
  have hserved' : (s.answers bs).length = (requests bs).length := by decide +kernel
  have hshown : s.shown as = [0, 1] := by decide +kernel
  have hshown' : s.shown bs = [] := by decide +kernel
  have hpainted : s.painted as = [[9, 9]] := by decide +kernel
  refine ⟨hshown, hshown', hpainted, ?_⟩
  unfold s
  exact schedules_agree {} ⟨1, 1⟩ ⟨1, 1⟩ (Volume.fresh 1 8) has hbs hsame hserved hserved'

end Scene

end PanelLink
