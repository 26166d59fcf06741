import PanelLink.Proofs.Outcomes
import PanelLink.Proofs.Scripts

/-!
How a listing is cut into replies: no byte is lost or sent twice, and an entry that one reply can
hold is in one reply.
-/
namespace PanelLink

/-! ## Payloads in a row -/

/-- The first payload begins with `p`, and behind that the payloads hold just `bytes`. -/
def Grows (p : Bytes) (ps : List Bytes) (bytes : Bytes) : Prop :=
  ∃ more qs, ps = (p ++ more) :: qs ∧ more ++ qs.flatten = bytes

/-- The line stands in one of the payloads, and `before` is all that comes before it. -/
def InOne (ps : List Bytes) (before line : Bytes) : Prop :=
  ∃ front a rest b, ps = front ++ (a ++ line ++ b) :: rest ∧ front.flatten ++ a = before

section

variable {p q bytes more before line : Bytes} {front ps : List Bytes}

theorem Grows.same (p more : Bytes) : Grows p [p ++ more] more :=
  ⟨more, [], rfl, List.append_nil more⟩

theorem Grows.flatten (h : Grows p ps bytes) : ps.flatten = p ++ bytes := by
  obtain ⟨more, qs, rfl, rfl⟩ := h
  rw [List.flatten_cons, List.append_assoc]

/-- What goes on from the last of the payloads goes on from the first. -/
theorem Grows.trans (h : Grows p (front ++ [q]) bytes) (h' : Grows q ps more) :
    Grows p (front ++ ps) (bytes ++ more) := by
  obtain ⟨added, qs, hps, rfl⟩ := h
  obtain ⟨added', qs', rfl, rfl⟩ := h'
  cases front with
  | nil =>
    obtain ⟨rfl, rfl⟩ : q = p ++ added ∧ [] = qs := by simpa using hps
    refine ⟨added ++ added', qs', ?_, ?_⟩
    · rw [List.nil_append, List.append_assoc]
    · rw [List.flatten_nil, List.append_nil, List.append_assoc]
  | cons x front =>
    obtain ⟨rfl, rfl⟩ : x = p ++ added ∧ front ++ [q] = qs := by simpa using hps
    refine ⟨added, front ++ (q ++ added') :: qs', rfl, ?_⟩
    simp only [List.flatten_append, List.flatten_cons, List.flatten_nil, List.append_nil,
      List.append_assoc]

theorem InOne.after (h : InOne ps before line) (front : List Bytes) :
    InOne (front ++ ps) (front.flatten ++ before) line := by
  obtain ⟨front', a, rest, b, rfl, rfl⟩ := h
  refine ⟨front ++ front', a, rest, b, ?_, ?_⟩
  · simp only [List.append_assoc]
  · rw [List.flatten_append, List.append_assoc]

theorem InOne.grows (h : InOne (front ++ [q]) before line) (h' : Grows q ps bytes) :
    InOne (front ++ ps) before line := by
  obtain ⟨front', a, rest, b, heq, rfl⟩ := h
  obtain ⟨added, qs, rfl, -⟩ := h'
  obtain rfl | ⟨rest, last, rfl⟩ := List.eq_nil_or_concat rest
  · obtain ⟨rfl, rfl⟩ := List.append_inj' heq rfl |>.imp_right List.singleton_inj.mp
    refine ⟨front, a, qs, b ++ added, ?_, rfl⟩
    simp only [List.append_assoc]
  · have hsnoc : front ++ [q] = (front' ++ (a ++ line ++ b) :: rest) ++ [last] := by
      simpa using heq
    obtain ⟨rfl, -⟩ := List.append_inj' hsnoc rfl
    refine ⟨front', a, rest ++ (q ++ added) :: qs, b, ?_, rfl⟩
    rw [List.append_assoc, List.cons_append]

end

/-- The payloads are the lines of the entries in order; a line that fits a payload is in one. -/
structure Tiles (es : List DirEntry) (ps : List Bytes) : Prop where
  whole : ps.flatten = es.flatMap Handler.entryLine
  entire {before after : List DirEntry} {e : DirEntry} : es = before ++ e :: after →
    (Handler.entryLine e).length ≤ Reply.capacity →
    InOne ps (before.flatMap Handler.entryLine) (Handler.entryLine e)

theorem Tiles.nil : Tiles [] [[]] where
  whole := rfl
  entire h := by simp at h

theorem Tiles.snoc {es : List DirEntry} {e : DirEntry} {front ps : List Bytes} {q : Bytes}
    (h : Tiles es (front ++ [q])) (hgrows : Grows q ps (Handler.entryLine e))
    (hone : (Handler.entryLine e).length ≤ Reply.capacity → InOne ps q (Handler.entryLine e)) :
    Tiles (es ++ [e]) (front ++ ps) := by
  have hfront : front.flatten ++ q = es.flatMap Handler.entryLine := by
    rw [← h.whole, List.flatten_append, List.flatten_singleton]
  constructor
  case whole =>
    rw [List.flatten_append, hgrows.flatten, List.flatMap_append, List.flatMap_singleton, ← hfront,
      List.append_assoc]
  case entire =>
    intro before after x heq hfits
    obtain rfl | ⟨after, last, rfl⟩ := List.eq_nil_or_concat after
    · obtain ⟨rfl, hx⟩ := List.append_inj' heq rfl
      obtain rfl := List.singleton_inj.mp hx
      rw [← hfront]
      exact (hone hfits).after front
    · have hsnoc : es ++ [e] = (before ++ x :: after) ++ [last] := by
        simpa using heq
      obtain ⟨rfl, -⟩ := List.append_inj' hsnoc rfl
      exact (h.entire rfl hfits).grows hgrows

/-- An empty payload at the end holds nothing. -/
theorem Tiles.append_nil {es : List DirEntry} {ps : List Bytes} (h : Tiles es ps) :
    Tiles es (ps ++ [[]]) where
  whole := by
    rw [List.flatten_append, List.flatten_singleton, List.append_nil, h.whole]
  entire heq hfits := by
    obtain ⟨front, a, rest, b, rfl, hbefore⟩ := h.entire heq hfits
    exact ⟨front, a, rest ++ [[]], b, by rw [List.append_assoc, List.cons_append], hbefore⟩

/-! ## Replies that go out -/

def payloads (rs : List Reply) (r : Reply) : List Bytes :=
  (rs ++ [r]).map (·.payload)

theorem payloads_nil (r : Reply) : payloads [] r = [r.payload] := rfl

theorem payloads_append (rs rs' : List Reply) (r : Reply) :
    payloads (rs ++ rs') r = rs.map (·.payload) ++ payloads rs' r := by
  simp only [payloads, List.map_append, List.append_assoc]

theorem payloads_snoc (rs : List Reply) (r : Reply) :
    payloads rs r = rs.map (·.payload) ++ [r.payload] := by
  simp only [payloads, List.map_append, List.map_cons, List.map_nil]

def Parts (rs : List Reply) : Prop :=
  ∀ r ∈ rs, r.status = .success ∧ r.payload ≠ [] ∧ r.payload.length ≤ Reply.capacity

theorem Parts.nil : Parts [] := nofun

theorem Parts.single {r : Reply} (h : Handler.Listed r) (hne : r.payload ≠ []) : Parts [r] := by
  intro q hq
  rw [List.mem_singleton.mp hq]
  exact ⟨h.1, hne, h.2⟩

theorem Parts.append {rs rs' : List Reply} (h : Parts rs) (h' : Parts rs') : Parts (rs ++ rs') := by
  intro r hr
  obtain hr | hr := List.mem_append.mp hr
  · exact h r hr
  · exact h' r hr

theorem Parts.length_le {rs : List Reply} (h : Parts rs) :
    rs.length ≤ (rs.map (·.payload)).flatten.length := by
  induction rs with
  | nil => exact Nat.le_refl 0
  | cons r rs ih =>
    have hr : 0 < r.payload.length := List.length_pos_iff.mpr (h r List.mem_cons_self).2.1
    have hrs := ih fun q hq => h q (List.mem_cons_of_mem r hq)
    rw [List.map_cons, List.flatten_cons, List.length_append, List.length_cons]
    omega

/-- A split listing, from its first reply to the empty one at its end. -/
structure Framed (es : List DirEntry) (rs : List Reply) : Prop where
  tiles : Tiles es (rs.map (·.payload))
  plain (r : Reply) : r ∈ rs → r.status = .success ∧ r.payload.length ≤ Reply.capacity
  ends : ∃ sent, rs = sent ++ [Handler.done]

/-- A listing in one reply: as many of the entries as the reply can hold. -/
structure Clipped (es : List DirEntry) (r : Reply) : Prop where
  status : r.status = .success
  fits : r.payload.length ≤ Reply.capacity
  longest : ∃ m ≤ es.length, r.payload = (es.take m).flatMap Handler.entryLine ∧
    ∀ m' ≤ es.length, ((es.take m').flatMap Handler.entryLine).length ≤ Reply.capacity → m' ≤ m

theorem Parts.framed {es : List DirEntry} {rs rest : List Reply} {r : Reply} (h : Parts rs)
    (hr : Handler.Listed r) (htiles : Tiles es (payloads rs r))
    (hrest : r.payload = [] ∧ rest = [] ∨ r.payload ≠ [] ∧ rest = [r]) :
    Framed es (rs ++ rest ++ [Handler.done]) ∧
      (rs ++ rest).length ≤ (es.flatMap Handler.entryLine).length := by
  have hrest' : Parts rest := by
    obtain ⟨-, rfl⟩ | ⟨hne, rfl⟩ := hrest
    · exact .nil
    · exact .single hr hne
  have hwhole : Tiles es ((rs ++ rest ++ [Handler.done]).map (·.payload)) := by
    obtain ⟨hnil, rfl⟩ | ⟨-, rfl⟩ := hrest
    · rw [payloads_snoc, hnil] at htiles
      rw [List.append_nil, List.map_append]
      exact htiles
    · rw [List.map_append]
      exact htiles.append_nil
  have hparts := h.append hrest'
  have hbytes : ((rs ++ rest).map (·.payload)).flatten.length ≤
      (es.flatMap Handler.entryLine).length := by
    have hlast : (rs ++ rest ++ [Handler.done]).map (·.payload) =
        (rs ++ rest).map (·.payload) ++ [[]] := List.map_append
    apply Nat.le_of_eq
    rw [← hwhole.whole, hlast, List.flatten_append, List.flatten_singleton, List.append_nil]
  refine ⟨⟨hwhole, fun q hq => ?_, rs ++ rest, rfl⟩, ?_⟩
  · obtain hq | hq := List.mem_append.mp hq
    · exact ⟨(hparts q hq).1, (hparts q hq).2.2⟩
    · rw [List.mem_singleton.mp hq]
      exact ⟨rfl, Nat.zero_le _⟩
  · exact Nat.le_trans hparts.length_le hbytes

variable {size chunk : Nat} {σ φ δ ε α β : Type}
  {R : Pause → Device size σ φ → Device size σ φ → Prop} {P : Device size σ φ → Prop}

/-- Over a transport that takes every reply the part sends `rs` and comes to `x`. It leaves the
endpoint as it is, and `P` holds to the end. -/
def Conduct.Posts (R : Pause → Device size σ φ → Device size σ φ → Prop)
    (P : Device size σ φ → Prop) (c : Conduct size chunk σ φ ε α) (x : α) (rs : List Reply) :
    Prop :=
  ∀ s d, s.outbox.Free → P d → (c.on s d).Within R
    (fun y w => y = (x, { s with outbox := s.outbox.took rs }) ∧ P w)
    (s.outbox.transport.waits rs.length)

abbrev Handler.Posts (R : Pause → Device size σ φ → Device size σ φ → Prop)
    (P : Device size σ φ → Prop) (h : Handler size chunk σ φ ε α) (x : α) (rs : List Reply) :
    Prop :=
  Conduct.Posts R P h.run (.ok x) rs

variable {x : α} {y : β} {rs rs' : List Reply}

namespace Conduct

theorem Posts.pure (x : α) : Posts R P (pure x : Conduct size chunk σ φ ε α) x [] := by
  intro s d ho hP
  rw [on_pure, Run.within_done, Outbox.took_nil]
  exact ⟨rfl, hP⟩

theorem Posts.bind {c : Conduct size chunk σ φ ε α} {f : α → Conduct size chunk σ φ ε β}
    (hc : Posts R P c x rs) (hf : Posts R P (f x) y rs') : Posts R P (c >>= f) y (rs ++ rs') := by
  intro s d ho hP
  have hwaits : s.outbox.transport.waits rs.length + s.outbox.transport.waits rs'.length ≤
      s.outbox.transport.waits (rs ++ rs').length := by
    apply Transport.waits_le
    exact Nat.le_of_eq List.length_append.symm
  rw [on_bind]
  refine ((hc s d ho hP).bind fun z w hz => ?_).mono hwaits
  obtain ⟨rfl, hw⟩ := hz
  have hrest := hf { s with outbox := s.outbox.took rs } w (ho.took rs) hw
  rw [Outbox.took_took] at hrest
  exact hrest

/-- A call that leaves the store as it is sends nothing. -/
theorem Posts.onStore {f : σ → α × σ} (hf : ∀ d, P d → f d.store = (x, d.store)) :
    Posts R P (Conduct.onStore f : Conduct size chunk σ φ ε α) x [] := by
  intro s d ho hP
  rw [on_onStore, hf d hP, Run.within_done, Outbox.took_nil]
  exact ⟨rfl, hP⟩

end Conduct

namespace Handler

theorem Posts.pure (x : α) : Posts R P (pure x : Handler size chunk σ φ ε α) x [] :=
  Conduct.Posts.pure (Except.ok x)

theorem Posts.bind {h : Handler size chunk σ φ ε α} {f : α → Handler size chunk σ φ ε β}
    (hh : Posts R P h x rs) (hf : Posts R P (f x) y rs') : Posts R P (h >>= f) y (rs ++ rs') :=
  Conduct.Posts.bind (f := ExceptT.bindCont f) hh hf

theorem Posts.send (hR : ∀ d w, P d → R .delivery d w → P w) (r : Reply) :
    Posts R P (Handler.send r : Handler size chunk σ φ ε Unit) () [r] :=
  fun _ d ho hP => send_within ho hP (fun w => hR d w hP) r

theorem Posts.map {h : Handler size chunk σ φ ε α} (hh : Posts R P h x rs) (f : α → β) :
    Posts R P (f <$> h) (f x) rs := by
  have hbind := Posts.bind (f := fun x => Pure.pure (f x)) hh (.pure (f x))
  rw [List.append_nil] at hbind
  rw [map_eq_pure_bind]
  exact hbind

/-! ## Entries -/

variable (chunk ε) in
/-- Bytes go to the reply, and from one to the next when it is full; if they fit none goes out. -/
theorem spill_posts (hR : ∀ d w, P d → R .delivery d w → P w) (bytes : Bytes) (r : Reply)
    (hr : Listed r) :
    ∃ rs q, Posts R P (spill bytes r : Handler size chunk σ φ ε Reply) q rs ∧ Listed q ∧ Parts rs ∧
      Grows r.payload (payloads rs q) bytes ∧ (bytes.length ≤ r.remaining → rs = []) := by
  induction bytes generalizing r with
  | nil =>
    have hgrows := Grows.same r.payload []
    rw [List.append_nil] at hgrows
    exact ⟨[], r, .pure r, hr, .nil, hgrows, fun _ => rfl⟩
  | cons b bs ih =>
    unfold spill
    cases hpush : r.push b with
    | ok q =>
      obtain ⟨hstatus, hpayload, hlt⟩ := Reply.push_ok hpush
      have hlength : q.payload.length = r.payload.length + 1 := by
        rw [hpayload, List.length_append, List.length_singleton]
      have hq : Listed q := ⟨hstatus.trans hr.1, by omega⟩
      obtain ⟨rs, q', hposts, hq', hrs, hgrows, hfits⟩ := ih q hq
      have hone : Grows r.payload ([] ++ [q.payload]) [b] := hpayload ▸ Grows.same r.payload [b]
      refine ⟨rs, q', hposts, hq', hrs, hone.trans hgrows, fun hle => hfits ?_⟩
      simp only [Reply.remaining, List.length_cons] at hle ⊢
      omega
    | error x =>
      have hfull : Reply.capacity ≤ r.payload.length := Reply.push_error hpush
      have hne : r.payload ≠ [] := by
        intro hnil
        rw [hnil] at hfull
        exact absurd hfull (by decide)
      have hfresh : r.clear.push b = .ok ⟨r.status, [b]⟩ := rfl
      have hlisted : Listed ⟨r.status, [b]⟩ := ⟨hr.1, (by decide : 1 ≤ Reply.capacity)⟩
      obtain ⟨rs, q, hposts, hq, hrs, hgrows, -⟩ := ih ⟨r.status, [b]⟩ hlisted
      have hpart : Parts [r] := .single hr hne
      refine ⟨[r] ++ rs, q, ?_, hq, hpart.append hrs, ?_, fun hle => ?_⟩
      · dsimp only
        rw [hfresh]
        exact (Posts.send hR r).bind hposts
      · refine ⟨[], payloads rs q, ?_, hgrows.flatten⟩
        rw [payloads_append, List.append_nil]
        rfl
      · simp only [Reply.remaining, List.length_cons] at hle
        omega

variable (chunk ε) in
/-- An entry that fits is added, and nothing goes out. -/
theorem appendEntry_fits (hR : ∀ d w, P d → R .delivery d w → P w) (mode : ListingMode)
    (e : DirEntry) (r : Reply) (hr : Listed r) (hfits : (entryLine e).length ≤ r.remaining) :
    ∃ q, Posts R P (appendEntry mode e r : Handler size chunk σ φ ε (Option Reply)) (some q) [] ∧
      Listed q ∧ q.payload = r.payload ++ entryLine e := by
  obtain ⟨rs, q, hposts, hq, -, hgrows, hnone⟩ :=
    spill_posts chunk ε hR (entryLine e) r hr
  obtain rfl := hnone hfits
  have hpayload : [q.payload].flatten = r.payload ++ entryLine e := hgrows.flatten
  rw [List.flatten_singleton] at hpayload
  unfold appendEntry
  dsimp only
  rw [if_pos hfits]
  exact ⟨q, hposts.map some, hq, hpayload⟩

variable (chunk ε) in
/-- In a split listing an entry goes out whole if a reply can hold it. -/
theorem appendEntry_split (hR : ∀ d w, P d → R .delivery d w → P w) (e : DirEntry) (r : Reply)
    (hr : Listed r) :
    ∃ rs q, Posts R P (appendEntry .split e r : Handler size chunk σ φ ε (Option Reply))
      (some q) rs ∧
      Listed q ∧ Parts rs ∧ Grows r.payload (payloads rs q) (entryLine e) ∧
      ((entryLine e).length ≤ Reply.capacity → InOne (payloads rs q) r.payload (entryLine e)) := by
  by_cases hfits : (entryLine e).length ≤ r.remaining
  · obtain ⟨q, hposts, hq, hpayload⟩ :=
      appendEntry_fits chunk ε hR .split e r hr hfits
    refine ⟨[], q, hposts, hq, .nil, ?_, fun _ => ⟨[], r.payload, [], [], ?_, rfl⟩⟩
    · rw [payloads_nil, hpayload]
      exact .same _ _
    · rw [payloads_nil, List.append_nil, List.nil_append, hpayload]
  unfold appendEntry
  dsimp only
  rw [if_neg hfits]
  by_cases hempty : r.isEmpty = true
  · obtain ⟨rs, q, hposts, hq, hrs, hgrows, -⟩ :=
      spill_posts chunk ε hR (entryLine e) r hr
    have hnil : r.payload = [] := List.isEmpty_iff.mp hempty
    have hlong : ¬ (entryLine e).length ≤ Reply.capacity := by
      rwa [Reply.remaining, hnil] at hfits
    rw [if_pos hempty]
    exact ⟨rs, q, hposts.map some, hq, hrs, hgrows, fun hle => absurd hle hlong⟩
  · obtain ⟨rs, q, hposts, hq, hrs, hgrows, hnone⟩ :=
      spill_posts chunk ε hR (entryLine e) r.clear hr.clear
    have hpart : Parts [r] := .single hr fun hnil => hempty (List.isEmpty_iff.mpr hnil)
    have hsplit : payloads ([r] ++ rs) q = r.payload :: payloads rs q := payloads_append [r] rs q
    rw [if_neg hempty]
    refine ⟨[r] ++ rs, q, (Posts.send hR r).bind (hposts.map some), hq, hpart.append hrs, ?_, ?_⟩
    · refine ⟨[], payloads rs q, ?_, hgrows.flatten⟩
      rw [hsplit, List.append_nil]
    · intro hle
      obtain rfl := hnone hle
      have hpayload : [q.payload].flatten = entryLine e := hgrows.flatten
      refine ⟨[r.payload], [], [], [], ?_, ?_⟩
      · rw [hsplit, payloads_nil, ← hpayload, List.flatten_singleton, List.append_nil]
        rfl
      · rw [List.flatten_singleton, List.append_nil]

/-- In a listing that is not split an entry that does not fit ends it. -/
theorem appendEntry_truncate {e : DirEntry} {r : Reply}
    (hfits : ¬ (entryLine e).length ≤ r.remaining) :
    Posts R P (appendEntry .truncate e r : Handler size chunk σ φ ε (Option Reply)) none [] := by
  unfold appendEntry
  dsimp only
  rw [if_neg hfits]
  exact .pure none

/-! ## The end of a listing -/

private theorem listed_posts (mode : ListingMode) {r q : Reply}
    (h : Posts R P (if mode = .split ∧ !r.isEmpty then do send r; return r.clear else return r :
      Handler size chunk σ φ ε Reply) q rs) :
    Posts R P (listed mode (.ok r) (.ok ()) : Handler size chunk σ φ ε Reply) q rs :=
  have hreply : Posts R P (pure r : Handler size chunk σ φ ε Reply) r [] := .pure r
  have hclosed : Posts R P (pure () : Handler size chunk σ φ ε Unit) () [] := .pure ()
  hreply.bind (hclosed.bind h)

variable (chunk ε) in
/-- A split listing sends what is left, and ends in an empty reply. -/
theorem listed_split (hR : ∀ d w, P d → R .delivery d w → P w) {r : Reply}
    (hr : r.status = .success) :
    ∃ rest, Posts R P (listed .split (.ok r) (.ok ()) : Handler size chunk σ φ ε Reply) done rest ∧
      (r.payload = [] ∧ rest = [] ∨ r.payload ≠ [] ∧ rest = [r]) := by
  obtain ⟨status, payload⟩ := r
  obtain rfl : status = .success := hr
  cases payload with
  | nil => exact ⟨[], listed_posts .split (.pure done), .inl ⟨rfl, rfl⟩⟩
  | cons b bs =>
    have hsend : Posts R P (send ⟨.success, b :: bs⟩ : Handler size chunk σ φ ε Unit) () _ :=
      .send hR ⟨.success, b :: bs⟩
    exact ⟨[⟨.success, b :: bs⟩], listed_posts .split (hsend.bind (.pure done)),
      .inr ⟨List.cons_ne_nil b bs, rfl⟩⟩

theorem listed_truncate (r : Reply) :
    Posts R P (listed .truncate (.ok r) (.ok ()) : Handler size chunk σ φ ε Reply) r [] :=
  listed_posts .truncate (.pure r)

end Handler

end PanelLink
