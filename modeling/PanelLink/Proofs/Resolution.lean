import PanelLink.Proofs.Handler
import PanelLink.Proofs.Trees

/-!
Paths in a directory. What a path means is reduced twice, on the way in and by the store: both come
to one place, and to go to a directory first makes no difference.
-/
namespace PanelLink

namespace Path

variable {cwd p q r x y : Bytes} {k : List Bytes}

/-- The path as the store has to read it, with the directory in front unless it is absolute. -/
def joined (cwd p : Bytes) : Bytes :=
  if isAbsolute p then p else cwd ++ [slash] ++ p

theorem normalize_of_resolve (h : resolve cwd p = .ok q) : normalize (joined cwd p) = .ok q := by
  unfold resolve at h
  unfold joined
  split at h
  · rename_i habsolute
    rwa [if_pos habsolute]
  · rename_i hrelative
    rw [if_neg hrelative]
    dsimp only at h
    split at h
    · cases h
    · exact h

theorem eq_render_of_resolve (h : resolve cwd p = .ok q) : q = render (place (joined cwd p)) :=
  (normalize_eq_ok_iff.mp (normalize_of_resolve h)).2.2

theorem place_of_resolve (h : resolve cwd p = .ok q) : place q = place (joined cwd p) := by
  rw [eq_render_of_resolve h]
  exact place_render fun c => isComponent_of_mem_place

private theorem joined_of_relative (h : isAbsolute r = false) (q : Bytes) :
    joined q r = q ++ slash :: r := by
  rw [joined, if_neg (by rw [h]; exact Bool.false_ne_true), List.append_assoc,
    List.singleton_append]

/-- A path that goes on stays absolute or relative. -/
theorem joined_append (hp : p ≠ []) (cwd r : Bytes) :
    joined cwd (p ++ [slash] ++ r) = joined cwd p ++ slash :: r := by
  have hsame : isAbsolute (p ++ [slash] ++ r) = isAbsolute p := by
    cases p with
    | nil => exact absurd rfl hp
    | cons b p => rfl
  unfold joined
  rw [hsame]
  split <;> simp

/-- To go on from a place that was resolved is to go on along the whole path. -/
theorem resolve_resolve (hp : p ≠ []) (hq : resolve cwd p = .ok q) (hr : isAbsolute r = false)
    (hx : resolve q r = .ok x) (hy : resolve cwd (p ++ [slash] ++ r) = .ok y) : x = y := by
  have hplace : place (joined q r) = place (joined cwd (p ++ [slash] ++ r)) := by
    rw [joined_of_relative hr, joined_append hp, place_append, place_append, place_of_resolve hq]
  rw [eq_render_of_resolve hx, eq_render_of_resolve hy, hplace]

/-- A component is shorter than a path that has it. -/
theorem length_lt_render {c : Bytes} (h : c ∈ k) : c.length < (render k).length := by
  obtain ⟨before, behind, rfl⟩ := List.append_of_mem h
  rw [render_eq, if_neg (by simp)]
  simp only [List.flatMap_append, List.flatMap_cons, List.length_append, List.length_cons]
  omega

end Path

namespace Volume

variable {cwd p q : Bytes} {k : Key}

/-- The store takes every path that comes out of a reduction, for it is short enough for each name
in it to fit. -/
theorem key_of_normalize (h : Path.normalize p = .ok q) : key q = .ok (Path.place p) := by
  obtain ⟨-, hshort, rfl⟩ := Path.normalize_eq_ok_iff.mp h
  have hnames : ∀ name ∈ Path.place p, IsName name := by
    intro name hname
    obtain ⟨⟨hnil, hdot, hdotDot⟩, hplain⟩ := Path.isComponent_of_mem_place hname
    have hlength : name.length < Path.maxLength :=
      Nat.lt_of_lt_of_le (Path.length_lt_render hname) hshort
    exact ⟨hnil, hdot, hdotDot, hplain, Nat.le_of_lt_succ hlength⟩
  have hslash (p : Bytes) : key (Path.slash :: p) = key p := by
    unfold key
    rw [Path.split, if_pos rfl, Path.reduce, if_pos (.inl rfl)]
  rw [Path.render_eq_intercalate, hslash, key_intercalate hnames]

end Volume

/-! ## The working directory -/

variable {size chunk : Nat} {σ φ δ ε : Type} [FileStore σ φ δ]

/-- Whoever enters a directory stands where the path to it leads, under the same settings. -/
theorem Handler.cd_done {s s' : Serving chunk φ ε} {d d' : Device size σ φ} {payload p : Bytes}
    {reply : Reply} (hp : Path.extract payload Path.maxDirectory = .ok p)
    (hcd : on (cd payload) s d = .done (.ok reply, s') d') :
    ∃ q, s.endpoint.meaning p = .ok q ∧ s'.endpoint.cwd = q ∧
      s'.endpoint.config = s.endpoint.config := by
  rw [on_cd, Endpoint.directoryOf, hp] at hcd
  cases hmeaning : s.endpoint.meaning p with
  | error e => simp [hmeaning] at hcd
  | ok q =>
    refine ⟨q, rfl, ?_⟩
    by_cases hlong : Path.maxDirectory ≤ q.length
    · simp [hmeaning, hlong] at hcd
    rcases hopen : FileStore.openDir d.store q with ⟨e | dir, t⟩
    · simp [hmeaning, hlong, on_enter, hopen] at hcd
    rcases hclose : FileStore.closeDir t dir with ⟨e | _, t'⟩
    · simp [hmeaning, hlong, on_enter, hopen, hclose] at hcd
    · simp only [hmeaning, hlong, if_false, on_enter, hopen, hclose, Run.done.injEq,
        Prod.mk.injEq] at hcd
      rw [← hcd.1.2]
      exact ⟨rfl, rfl⟩

/-- A path means the same file to the endpoint and to the store. What it resolves to is a path that
the store reduces to the same key without a failure, and to no other than it reduces the path itself
to. To resolve a path behind another is to resolve the two as one path, so the working directory
never makes a difference: what is reached from a directory that was entered is what is reached from
outside through it. -/
theorem Path.resolves_to_same_node (cwd p : Bytes) (hp : p ≠ []) :
    (∀ q, resolve cwd p = .ok q → ∃ k, Volume.key q = .ok k ∧
      q = slash :: List.intercalate [slash] k ∧
      ∀ k', Volume.key (joined cwd p) = .ok k' → k' = k) ∧
    (∀ q r x y, resolve cwd p = .ok q → isAbsolute r = false → resolve q r = .ok x →
      resolve cwd (p ++ [slash] ++ r) = .ok y → x = y) ∧
    (∀ (s s' : Serving chunk φ ε) (d d' : Device size σ φ) payload reply,
      s.endpoint.config.paths = .relative → s.endpoint.cwd = cwd →
      extract payload maxDirectory = .ok p →
      Handler.on (Handler.cd payload) s d = .done (.ok reply, s') d' →
      ∀ r x y, isAbsolute r = false → s'.endpoint.meaning r = .ok x →
        s.endpoint.meaning (p ++ [slash] ++ r) = .ok y →
        ∃ k, Volume.key x = .ok k ∧ Volume.key y = .ok k) := by
  refine ⟨fun q hq => ?_, fun q r x y hq hr hx hy => resolve_resolve hp hq hr hx hy, ?_⟩
  · have hnormal := normalize_of_resolve hq
    refine ⟨place (joined cwd p), Volume.key_of_normalize hnormal, ?_, fun k' hk' =>
      (Volume.key_eq_ok_iff.mp hk').1⟩
    rw [← render_eq_intercalate]
    exact (normalize_eq_ok_iff.mp hnormal).2.2
  · rintro s s' d d' payload reply hrelative rfl hextract hcd r x y hr hx hy
    obtain ⟨q, hq, hcwd, hconfig⟩ := Handler.cd_done hextract hcd
    have hmeaning (e : Endpoint chunk φ) (h : e.config.paths = .relative) (p : Bytes) :
        e.meaning p = resolve e.cwd p := by
      unfold Endpoint.meaning
      rw [h]
    rw [hmeaning _ (hconfig ▸ hrelative), hcwd] at hx
    rw [hmeaning _ hrelative] at hq hy
    obtain rfl : x = y := resolve_resolve hp hq hr hx hy
    exact ⟨_, Volume.key_of_normalize (normalize_of_resolve hx),
      Volume.key_of_normalize (normalize_of_resolve hx)⟩

/-- From `/img` one enters `anim/../x` and goes on to `../y`, or names `anim/../x/../y` at once. -/
theorem Path.same_node_through_parent :
    let cwd := Bytes.ofText "/img"
    let p := Bytes.ofText "anim/../x"
    let r := Bytes.ofText "../y"
    let volume := ((Volume.fresh 1 16).put [Bytes.ofText "img"] .dir).put
      [Bytes.ofText "img", Bytes.ofText "x"] .dir
    let d : Device 2 Volume FileHandle := .initial ⟨1, 1⟩ volume
    let e : Endpoint 2 FileHandle := { Endpoint.initial { paths := .relative } with cwd := cwd }
    let s : Serving 2 FileHandle Unit := ⟨e, .empty .instant⟩
    p ≠ [] ∧ ∃ s' d', Handler.on (Handler.cd (p ++ [0, 0])) s d = .done (.ok Handler.done, s') d' ∧
      s'.endpoint.cwd = Bytes.ofText "/img/x" ∧
      s'.endpoint.meaning r = .ok (Bytes.ofText "/img/y") ∧
      e.meaning (p ++ [slash] ++ r) = .ok (Bytes.ofText "/img/y") ∧
      ∃ k, Volume.key (Bytes.ofText "/img/y") = .ok k := by
  intro cwd p r volume d e s
  have hp : p ≠ [] := by decide +kernel
  let s' : Serving 2 FileHandle Unit :=
    ⟨{ e with cwd := Bytes.ofText "/img/x" }, .empty .instant⟩
  have hcd : Handler.on (Handler.cd (p ++ [0, 0])) s d = .done (.ok Handler.done, s') d := by
    have hdirectory : s.endpoint.directoryOf (p ++ [0, 0]) = .ok (Bytes.ofText "/img/x") := by
      decide +kernel
    have hopen : FileStore.openDir d.store (Bytes.ofText "/img/x") =
        (.ok ⟨Volume.dotEntries, 0⟩, volume) := by
      decide +kernel
    rw [Handler.on_cd, hdirectory]
    dsimp only
    rw [Handler.on_enter, hopen]
    rfl
  have hx : s'.endpoint.meaning r = .ok (Bytes.ofText "/img/y") := by decide +kernel
  have hy : e.meaning (p ++ [slash] ++ r) = .ok (Bytes.ofText "/img/y") := by decide +kernel
  obtain ⟨k, hk, -⟩ := (resolves_to_same_node cwd p hp).2.2 s s' d d (p ++ [0, 0]) Handler.done rfl
    rfl (by decide +kernel) hcd r _ _ (by decide +kernel) hx hy
  exact ⟨hp, s', d, hcd, rfl, hx, hy, k, hk⟩

end PanelLink
