import PanelLink.Proofs.Fairness
import PanelLink.Proofs.RoundTrip
import PanelLink.Proofs.Scripts
import PanelLink.Proofs.Tandem
import PanelLink.Proofs.Unseen

/-!
Transports that break. A frame is served over them as over one that takes every reply, but for the
replies from the break on: the host gets the first of them, and all else is the same.
-/
namespace PanelLink

variable {size chunk : Nat} {σ φ δ ι ε α β γ : Type}

/-- The transport takes `c` replies at once, and refuses the next one. -/
structure Transport.Breaks (t : Transport ε) (c : Nat) (x : ε) : Prop where
  quick : t.slow = false
  takes (n : Nat) : n < c → t.refuse n = none
  refuses : t.refuse c = some x

namespace Outbox

/-- The outbox after the replies `rs` over a transport that takes `c` of them. -/
def severed (t : Transport ε) (c : Nat) (x : ε) (rs : List Reply) : Outbox ε where
  transport := t
  sent := rs.take c
  attempts := min rs.length (c + 1)
  failure := if c < rs.length then some x else none

variable {t : Transport ε} {c : Nat} {x : ε} {rs : List Reply}

theorem severed_nil : severed t c x [] = empty t := by
  simp [severed, empty]

theorem severed_unbroken (h : rs.length ≤ c) : (severed t c x rs).failure = none :=
  if_neg (Nat.not_lt.mpr h)

theorem severed_failure (h : c < rs.length) : (severed t c x rs).failure = some x :=
  if_pos h

/-- Replies that come too late leave no trace. -/
theorem severed_append (h : c < rs.length) (rs' : List Reply) :
    severed t c x (rs ++ rs') = severed t c x rs := by
  have hlong : c < (rs ++ rs').length := by
    rw [List.length_append]
    omega
  have htried (n : Nat) (hn : c < n) : min n (c + 1) = c + 1 := by omega
  unfold severed
  rw [if_pos h, if_pos hlong, htried _ h, htried _ hlong,
    List.take_append_of_le_length (Nat.le_of_lt h)]

theorem post_severed (ht : t.Breaks c x) (h : rs.length ≤ c) (r : Reply) :
    (severed t c x rs).post r =
      (decide ((rs ++ [r]).length ≤ c), severed t c x (rs ++ [r])) := by
  have hlength : (rs ++ [r]).length = rs.length + 1 := List.length_append
  have htried : min rs.length (c + 1) = rs.length := by omega
  have hsent : rs.take c = rs := List.take_of_length_le h
  obtain hlt | hlast := Nat.lt_or_eq_of_le h
  · have hall : (rs ++ [r]).take c = rs ++ [r] := List.take_of_length_le (by omega)
    have hroom : rs.length + 1 ≤ c := hlt
    have htried' : min (rs.length + 1) (c + 1) = rs.length + 1 := by omega
    simp only [post, severed, hlength, htried, htried', hsent, hall, ht.takes _ hlt,
      if_neg (Nat.not_lt.mpr h), if_neg (Nat.not_lt.mpr hroom), decide_eq_true hroom]
  · have hnone : (rs ++ [r]).take c = rs := by
      rw [← hlast, List.take_left]
    have hover : c < rs.length + 1 := by omega
    have htried' : min (rs.length + 1) (c + 1) = rs.length + 1 := by omega
    have hrefused : t.refuse rs.length = some x := hlast ▸ ht.refuses
    simp only [post, severed, hlength, htried, htried', hsent, hnone, hrefused,
      if_neg (Nat.not_lt.mpr h), if_pos hover, decide_eq_false (Nat.not_le.mpr hover)]

theorem postAll_severed (ht : t.Breaks c x) {rs : List Reply} (h : rs.length ≤ c)
    (rs' : List Reply) :
    (severed t c x rs).postAll rs' =
      (decide ((rs ++ rs').length ≤ c), severed t c x (rs ++ rs')) := by
  induction rs' generalizing rs with
  | nil =>
    rw [List.append_nil, decide_eq_true h]
    rfl
  | cons r rs' ih =>
    have happend : rs ++ r :: rs' = rs ++ [r] ++ rs' := by simp
    rw [postAll, post_severed ht h, happend]
    by_cases hroom : (rs ++ [r]).length ≤ c
    · rw [decide_eq_true hroom]
      exact ih hroom
    · have hlong : ¬ (rs ++ [r] ++ rs').length ≤ c := by
        rw [List.length_append]
        omega
      rw [decide_eq_false hroom, decide_eq_false hlong, severed_append (Nat.not_le.mp hroom)]

/-- A transport that takes every reply takes them all. -/
theorem Free.postAll_eq {o : Outbox ε} (h : o.Free) (rs : List Reply) :
    o.postAll rs = (true, o.took rs) := by
  induction rs generalizing o with
  | nil => rw [took_nil, postAll]
  | cons r rs ih =>
    rw [postAll, h.post_eq]
    dsimp only
    rw [ih (h.took [r]), took_took]
    rfl

def handed (rs : List Reply) : Outbox ε :=
  (empty .instant).took rs

theorem handed_free (rs : List Reply) : (handed rs : Outbox ε).Free :=
  ⟨rfl, fun _ => rfl⟩

end Outbox

/-! ## Serving a frame -/

namespace Conduct

variable [FileStore σ φ δ] {t : Transport ε} {c : Nat} {x : ε} {rs : List Reply}
  {e : Endpoint chunk φ} {d : Device size σ φ}

theorem on_conclude_handed (y : Except CommandError Reply) :
    on (conclude y : Conduct size chunk σ φ ε _) ⟨e, .handed rs⟩ d =
      .done (.ok (finalReply y).status, ⟨e, .handed (rs ++ [finalReply y])⟩) d := by
  have hfree : (Outbox.handed rs : Outbox ε).Free := Outbox.handed_free rs
  rw [on_conclude_quick hfree.unbroken rfl, hfree.post_eq, Outbox.handed, Outbox.took_took]
  rfl

/-- The last reply is taken or refused if none was refused before. -/
theorem on_conclude_severed (ht : t.Breaks c x) (hroom : rs.length ≤ c)
    (y : Except CommandError Reply) :
    on (conclude y) ⟨e, .severed t c x rs⟩ d =
      .done (if c < (rs ++ [finalReply y]).length then .error x else .ok (finalReply y).status,
        ⟨e, .severed t c x (rs ++ [finalReply y])⟩) d := by
  have hunbroken : (Outbox.severed t c x rs).failure = none := Outbox.severed_unbroken hroom
  rw [on_conclude_quick hunbroken ht.quick]
  dsimp only
  rw [Outbox.post_severed ht hroom]
  dsimp only [Outbox.severed]
  split <;> rfl

end Conduct

def Device.Same : Onward size σ φ :=
  fun _ _ _ d d' => d = d'

/-- A run with two ends is in tandem with itself. -/
theorem Run.tandem_ends {r : Run (Device size σ φ) α} {f : α → β} {g : α → γ}
    {Q : Device size σ φ → Device size σ φ → β → Device size σ φ → γ → Device size σ φ → Prop}
    (h : ∀ v a w, Q v v (f a) w (g a) w) (v : Device size σ φ) :
    (r.bind fun a w => .done (f a) w).Tandem Device.Same Device.Same Q v v
      (r.bind fun a w => .done (g a) w) := by
  induction r generalizing v with
  | done a w => exact h v a w
  | paused p w k ih =>
    refine ⟨rfl, rfl, ?_⟩
    rintro u u' rfl
    exact ih u u

/-- What a frame comes to over a transport that breaks, against one that takes every reply: the host
gets the first `c` replies, and the refusal if there were more; the endpoint and the device are the
same but for the recorded reads. -/
structure Severed (t : Transport ε) (c : Nat) (x : ε)
    (y : Except ε Status × Serving chunk FileHandle ε)
    (w : Device size (Disturbed ι Volume) FileHandle)
    (y' : Except ε Status × Serving chunk FileHandle ε)
    (w' : Device size (Disturbed ι Volume) FileHandle) : Prop where
  answered : ∃ status, y.1 = .ok status
  result : y'.1 = if c < y.2.outbox.sent.length then .error x else y.1
  outbox : y'.2.outbox = .severed t c x y.2.outbox.sent
  endpoint : y'.2.endpoint = y.2.endpoint
  device : ∃ reads, w' = w.withReads reads

section

variable {t : Transport ε} {c : Nat} {x : ε} {e : Endpoint chunk FileHandle}
  {d w : Device size (Disturbed ι Volume) FileHandle}

/-- A command with a script is cut short. -/
theorem Handler.Plays.severed {h : Handler size chunk (Disturbed ι Volume) FileHandle ε Reply}
    {rs : List Reply} {y : Except CommandError Reply} (hh : Plays h e d rs y w)
    (ht : t.Breaks c x) :
    ((Handler.on h ⟨e, .empty .instant⟩ d).bind fun y w => (Conduct.conclude y.1).on y.2 w).Tandem
      Device.Same Device.Same (fun _ _ y w y' w' => Severed t c x y w y' w') d d
      ((Handler.on h ⟨e, .empty t⟩ d).bind fun y w => (Conduct.conclude y.1).on y.2 w) := by
  have hnone : (Outbox.empty .instant : Outbox ε) = .handed [] := rfl
  have hall : (Outbox.empty .instant : Outbox ε).postAll rs = (true, .handed rs) := by
    rw [hnone, (Outbox.handed_free []).postAll_eq]
    rfl
  have hsome : (Outbox.empty t).postAll rs =
      (decide (rs.length ≤ c), .severed t c x rs) := by
    have hempty : ([] : List Reply).length ≤ c := Nat.zero_le c
    rw [← Outbox.severed_nil (c := c) (x := x), Outbox.postAll_severed ht hempty, List.nil_append]
  rw [hh.whole rfl hall, Run.done_bind, Conduct.on_conclude_handed]
  by_cases hroom : rs.length ≤ c
  · rw [decide_eq_true hroom] at hsome
    rw [hh.whole ht.quick hsome, Run.done_bind, Conduct.on_conclude_severed ht hroom]
    exact ⟨⟨_, rfl⟩, rfl, rfl, rfl, w.store.store.reads, rfl⟩
  · rw [decide_eq_false hroom] at hsome
    obtain ⟨y', reads, -, hrun⟩ := hh.broken ht.quick hsome
    have hbroken : c < rs.length := Nat.not_le.mp hroom
    have hlong : c < (rs ++ [finalReply y]).length := by
      rw [List.length_append]
      omega
    have hlate := Outbox.severed_append (t := t) (x := x) hbroken [finalReply y]
    rw [hrun, Run.done_bind, Conduct.on_conclude, Outbox.severed_failure hbroken]
    exact ⟨⟨_, rfl⟩, (if_pos hlong).symm, hlate.symm, rfl, reads, rfl⟩

/-- A command that sends nothing has nothing to cut, and its last reply is taken or refused. -/
theorem Handler.Blind.severed {h : Handler size chunk (Disturbed ι Volume) FileHandle ε Reply}
    (hh : ∀ o : Outbox ε, Blind (Serving.through o) h) (ht : t.Breaks c x) :
    ((Handler.on h ⟨e, .empty .instant⟩ d).bind fun y w => (Conduct.conclude y.1).on y.2 w).Tandem
      Device.Same Device.Same (fun _ _ y w y' w' => Severed t c x y w y' w') d d
      ((Handler.on h ⟨e, .empty t⟩ d).bind fun y w => (Conduct.conclude y.1).on y.2 w) := by
  have hrun (o : Outbox ε) : Handler.on h ⟨e, o⟩ d =
      (Handler.on h ⟨e, .empty .instant⟩ d).bind fun y w =>
        .done (y.1, ⟨y.2.endpoint, o⟩) w := hh o ⟨e, .empty .instant⟩ d
  have hinstant := hrun (.empty .instant)
  have hnone : (Outbox.empty .instant : Outbox ε) = .handed [] := rfl
  have hsome : Outbox.empty t = .severed t c x [] := Outbox.severed_nil.symm
  have hempty : ([] : List Reply).length ≤ c := Nat.zero_le c
  rw [hrun (.empty t)]
  generalize Handler.on h ⟨e, .empty .instant⟩ d = r at hinstant ⊢
  rw [hinstant, Run.bind_bind, Run.bind_bind, Run.bind_bind]
  simp only [Run.done_bind, hnone, hsome, Conduct.on_conclude_handed,
    Conduct.on_conclude_severed ht hempty]
  refine Run.tandem_ends ?_ d
  intro v y w
  exact ⟨⟨_, rfl⟩, rfl, rfl, rfl, w.store.store.reads, rfl⟩

end

/-! ## Scenes -/

namespace Scene

variable [FileStore σ φ δ] {r r' : Request ε} {e e' : Endpoint chunk φ}
  {Q : Answer ε × Endpoint chunk φ → Device size σ φ → Answer ε × Endpoint chunk φ →
    Device size σ φ → Prop}

end Scene

/-! ## Broken transports -/

namespace Scene

end Scene

end PanelLink
