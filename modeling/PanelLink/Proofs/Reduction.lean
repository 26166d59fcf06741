import Mathlib.Data.List.Induction
import PanelLink.Path

/-!
What a reduction comes to: the walk that the components of a path make from the root. The paths that
walks end at are the normal ones, and reducing a normal path again changes nothing.
-/
namespace PanelLink.Path

variable {ε : Type} {check : List Bytes → Bytes → Option ε} {stack cs k : List Bytes}
  {p q c name : Bytes}

/-! ## Walks -/

/-- One component taken from a place: nothing and `.` stay there, `..` goes up if it can, and any
other goes down. -/
def advance (stack : List Bytes) (c : Bytes) : List Bytes :=
  if c = [] ∨ c = dot then stack
  else if c = dotDot then stack.dropLast
  else stack ++ [c]

def walk (stack cs : List Bytes) : List Bytes :=
  cs.foldl advance stack

def place (p : Bytes) : List Bytes :=
  walk [] (p.splitOn slash)

structure GoesDown (c : Bytes) : Prop where
  ne_nil : c ≠ []
  ne_dot : c ≠ dot
  ne_dotDot : c ≠ dotDot

theorem advance_of_goesDown (h : GoesDown c) (stack : List Bytes) :
    advance stack c = stack ++ [c] := by
  rw [advance, if_neg (not_or.mpr ⟨h.ne_nil, h.ne_dot⟩), if_neg h.ne_dotDot]

/-- A component that does not go down makes no place deeper. -/
theorem advance_of_not_goesDown (h : ¬GoesDown c) (stack : List Bytes) :
    advance stack c <+: stack := by
  unfold advance
  split
  · exact List.prefix_rfl
  rename_i hskip
  split
  · exact List.dropLast_prefix stack
  · rename_i hup
    obtain ⟨hnil, hdot⟩ := not_or.mp hskip
    exact absurd ⟨hnil, hdot, hup⟩ h

theorem walk_cons (stack : List Bytes) (c : Bytes) (cs : List Bytes) :
    walk stack (c :: cs) = walk (advance stack c) cs := rfl

theorem walk_append (stack cs cs' : List Bytes) :
    walk stack (cs ++ cs') = walk (walk stack cs) cs' :=
  List.foldl_append

theorem walk_concat (stack cs : List Bytes) (c : Bytes) :
    walk stack (cs ++ [c]) = advance (walk stack cs) c :=
  walk_append stack cs [c]

/-- Names lead down, each from the one before it. -/
theorem walk_names (h : ∀ c ∈ cs, GoesDown c) (stack : List Bytes) :
    walk stack cs = stack ++ cs := by
  induction cs generalizing stack with
  | nil => exact (List.append_nil stack).symm
  | cons c cs ih =>
    have hc : advance stack c = stack ++ [c] := advance_of_goesDown (h c List.mem_cons_self) stack
    rw [walk_cons, hc, ih (fun c' hc' => h c' (List.mem_cons_of_mem c hc')), List.append_assoc,
      List.singleton_append]

/-- A walk holds what was there before and names among its components. -/
theorem mem_walk (h : name ∈ walk stack cs) : name ∈ stack ∨ name ∈ cs ∧ GoesDown name := by
  induction cs generalizing stack with
  | nil => exact .inl h
  | cons c cs ih =>
    obtain hstack | ⟨hcs, hdown⟩ := ih h
    · by_cases hc : GoesDown c
      · rw [advance_of_goesDown hc] at hstack
        obtain hmem | hmem := List.mem_append.mp hstack
        · exact .inl hmem
        · obtain rfl := List.mem_singleton.mp hmem
          exact .inr ⟨List.mem_cons_self, hc⟩
      · exact .inl ((advance_of_not_goesDown hc stack).subset hstack)
    · exact .inr ⟨List.mem_cons_of_mem c hcs, hdown⟩

/-! ## A reduction is a walk whose steps pass a check -/

theorem split_eq_splitOn (p : Bytes) : split p = p.splitOn slash := by
  induction p with
  | nil => rfl
  | cons b rest ih =>
    have hne : split rest ≠ [] := ih ▸ List.splitOn_ne_nil slash rest
    rw [split, List.splitOn_cons_eq_if_modifyHead, ← ih]
    by_cases hb : b = slash
    · rw [if_pos hb, if_pos (beq_iff_eq.mpr hb)]
    · rw [if_neg hb, if_neg (fun h => hb (beq_iff_eq.mp h))]
      cases hrest : split rest with
      | nil => exact absurd hrest hne
      | cons c cs => rfl

/-- Only a step down is checked. -/
theorem reduce_cons_down (h : GoesDown c) (hcheck : check stack c = none) :
    reduce check stack (c :: cs) = reduce check (advance stack c) cs := by
  rw [advance_of_goesDown h, reduce, if_neg (not_or.mpr ⟨h.ne_nil, h.ne_dot⟩), if_neg h.ne_dotDot,
    hcheck]

theorem reduce_cons_failed {e : ε} (h : GoesDown c) (hcheck : check stack c = some e) :
    reduce check stack (c :: cs) = .error e := by
  rw [reduce, if_neg (not_or.mpr ⟨h.ne_nil, h.ne_dot⟩), if_neg h.ne_dotDot, hcheck]

theorem reduce_cons_other (h : ¬GoesDown c) :
    reduce check stack (c :: cs) = reduce check (advance stack c) cs := by
  unfold advance
  rw [reduce]
  split
  · rfl
  rename_i hskip
  split
  · rfl
  · rename_i hup
    obtain ⟨hnil, hdot⟩ := not_or.mp hskip
    exact absurd ⟨hnil, hdot, hup⟩ h

def Passes (check : List Bytes → Bytes → Option ε) (stack cs : List Bytes) : Prop :=
  ∀ pre c post, cs = pre ++ c :: post → GoesDown c → check (walk stack pre) c = none

private theorem passes_cons :
    Passes check stack (c :: cs) ↔
      (GoesDown c → check stack c = none) ∧ Passes check (advance stack c) cs := by
  refine ⟨fun h => ⟨h [] c cs rfl, fun pre c' post hcs => h (c :: pre) c' post (by rw [hcs]; rfl)⟩,
    fun ⟨hfirst, hrest⟩ pre c' post hcs hdown => ?_⟩
  cases pre with
  | nil =>
    obtain ⟨rfl, -⟩ := List.cons.inj hcs
    exact hfirst hdown
  | cons b pre =>
    obtain ⟨rfl, htail⟩ := List.cons.inj hcs
    exact hrest pre c' post htail hdown

theorem reduce_eq_ok_iff :
    reduce check stack cs = .ok k ↔ k = walk stack cs ∧ Passes check stack cs := by
  induction cs generalizing stack with
  | nil =>
    have hpasses : Passes check stack [] := fun pre c post h => by simp at h
    rw [reduce, Except.ok.injEq]
    exact ⟨fun h => ⟨h.symm, hpasses⟩, fun h => h.1.symm⟩
  | cons c cs ih =>
    rw [walk_cons, passes_cons]
    by_cases hc : GoesDown c
    · cases hcheck : check stack c with
      | some e =>
        rw [reduce_cons_failed hc hcheck]
        simp [hc]
      | none =>
        rw [reduce_cons_down hc hcheck, ih]
        simp
    · rw [reduce_cons_other hc, ih]
      simp [hc]

/-- A reduction fails with what the check says of one of its components. -/
theorem reduce_error {e : ε} (h : reduce check stack cs = .error e) :
    ∃ place, ∃ c ∈ cs, check place c = some e := by
  induction cs generalizing stack with
  | nil => cases h
  | cons c cs ih =>
    have hlater (h : reduce check (advance stack c) cs = .error e) :
        ∃ place, ∃ c' ∈ c :: cs, check place c' = some e := by
      obtain ⟨place, c', hmem, hcheck⟩ := ih h
      exact ⟨place, c', List.mem_cons_of_mem c hmem, hcheck⟩
    by_cases hc : GoesDown c
    · cases hcheck : check stack c with
      | some e' =>
        rw [reduce_cons_failed hc hcheck] at h
        obtain rfl := Except.error.inj h
        exact ⟨stack, c, List.mem_cons_self, hcheck⟩
      | none =>
        rw [reduce_cons_down hc hcheck] at h
        exact hlater h
    · rw [reduce_cons_other hc] at h
      exact hlater h

/-! ## The depth of a walk -/

def Shallow (cs : List Bytes) : Prop :=
  ∀ pre, pre <+: cs → (walk [] pre).length ≤ maxDepth

private theorem depthFailure_eq_none_iff :
    depthFailure stack c = none ↔ stack.length < maxDepth := by
  unfold depthFailure
  split <;> simp_all

theorem passes_depthFailure_iff : Passes depthFailure [] cs ↔ Shallow cs := by
  constructor
  · intro h pre
    -- A walk grows only with a step down, one component at a time.
    induction pre using List.reverseRecOn with
    | nil => exact fun _ => Nat.zero_le _
    | append_singleton pre c ih =>
      intro ⟨post, hcs⟩
      have hbefore : (walk [] pre).length ≤ maxDepth := ih ⟨[c] ++ post, by rw [← hcs]; simp⟩
      rw [walk_concat]
      by_cases hc : GoesDown c
      · have hcheck := h pre c post (by rw [← hcs]; simp) hc
        have hroom : (walk [] pre).length < maxDepth := depthFailure_eq_none_iff.mp hcheck
        rw [advance_of_goesDown hc, List.length_append]
        exact hroom
      · exact Nat.le_trans (advance_of_not_goesDown hc _).length_le hbefore
  · intro h pre c post hcs hc
    have hdeep : (walk [] (pre ++ [c])).length ≤ maxDepth := h _ ⟨post, by rw [hcs]; simp⟩
    rw [walk_concat, advance_of_goesDown hc, List.length_append] at hdeep
    exact depthFailure_eq_none_iff.mpr hdeep

/-! ## Places and the paths that stand for them -/

theorem render_eq (k : List Bytes) :
    render k = if k = [] then [slash] else k.flatMap (slash :: ·) := by
  cases k with
  | nil => rfl
  | cons c cs => rfl

structure IsComponent (c : Bytes) : Prop extends GoesDown c where
  plain : slash ∉ c

private theorem slash_notMem_of_mem (h : c ∈ p.splitOn slash) : slash ∉ c := by
  induction p generalizing c with
  | nil =>
    obtain rfl : c = [] := List.mem_singleton.mp h
    exact List.not_mem_nil
  | cons b rest ih =>
    rw [List.splitOn_cons_eq_if_modifyHead] at h
    split at h
    · obtain rfl | h := List.mem_cons.mp h
      · exact List.not_mem_nil
      · exact ih h
    rename_i hb
    cases hrest : rest.splitOn slash with
    | nil => exact absurd hrest (List.splitOn_ne_nil slash rest)
    | cons d ds =>
      rw [hrest] at h ih
      obtain rfl | h := List.mem_cons.mp h
      · have hd : slash ∉ d := ih List.mem_cons_self
        simp only [List.mem_cons, not_or]
        exact ⟨fun he => hb (beq_iff_eq.mpr he.symm), hd⟩
      · exact ih (List.mem_cons_of_mem _ h)

theorem isComponent_of_mem_place (h : c ∈ place p) : IsComponent c := by
  obtain hroot | ⟨hmem, hdown⟩ := mem_walk h
  · exact absurd hroot List.not_mem_nil
  · exact ⟨hdown, slash_notMem_of_mem hmem⟩

/-- A path behind another goes on from the place that this one leads to. -/
theorem place_append (p r : Bytes) :
    place (p ++ slash :: r) = walk (place p) (r.splitOn slash) := by
  rw [place, List.splitOn_append_cons_self, walk_append]
  rfl

theorem place_slash (p : Bytes) : place (slash :: p) = place p :=
  place_append [] p

theorem place_intercalate (h : ∀ c ∈ k, IsComponent c) :
    place (List.intercalate [slash] k) = k := by
  by_cases hne : k = []
  · subst hne
    rfl
  · rw [place, List.splitOn_intercalate slash (fun c hc => (h c hc).plain) hne,
      walk_names (fun c hc => (h c hc).toGoesDown), List.nil_append]

theorem render_eq_intercalate (k : List Bytes) :
    render k = slash :: List.intercalate [slash] k := by
  induction k with
  | nil => rfl
  | cons c cs ih =>
    cases cs with
    | nil => simp [render]
    | cons c' cs =>
      rw [List.intercalate_cons_cons, List.append_assoc, List.singleton_append, ← ih]
      simp [render]

theorem place_render (h : ∀ c ∈ k, IsComponent c) : place (render k) = k := by
  rw [render_eq_intercalate, place_slash, place_intercalate h]

theorem splitOn_render (h : ∀ c ∈ k, IsComponent c) (hne : k ≠ []) :
    (render k).splitOn slash = [] :: k := by
  have hsplit : (List.intercalate [slash] k).splitOn slash = k :=
    List.splitOn_intercalate slash (fun c hc => (h c hc).plain) hne
  rw [render_eq_intercalate, ← List.nil_append (slash :: _), List.splitOn_append_cons_self, hsplit]
  rfl

theorem normalize_eq_ok_iff :
    normalize p = .ok q ↔
      Shallow (p.splitOn slash) ∧ (render (place p)).length ≤ maxLength ∧ q = render (place p) := by
  rw [normalize, split_eq_splitOn]
  cases hreduce : reduce depthFailure [] (p.splitOn slash) with
  | error e =>
    refine ⟨nofun, fun ⟨hshallow, _⟩ => ?_⟩
    rw [reduce_eq_ok_iff.mpr ⟨rfl, passes_depthFailure_iff.mpr hshallow⟩] at hreduce
    cases hreduce
  | ok k =>
    obtain ⟨rfl, hpasses⟩ := reduce_eq_ok_iff.mp hreduce
    have hshallow : Shallow (p.splitOn slash) := passes_depthFailure_iff.mp hpasses
    change (if maxLength < (render (place p)).length then _ else _) = _ ↔ _
    by_cases hlong : maxLength < (render (place p)).length
    · rw [if_pos hlong]
      exact ⟨nofun, fun ⟨_, hshort, _⟩ => absurd hlong (Nat.not_lt.mpr hshort)⟩
    · rw [if_neg hlong, Except.ok.injEq]
      exact ⟨fun h => ⟨hshallow, Nat.not_lt.mp hlong, h.symm⟩, fun h => h.2.2.symm⟩

theorem normalize_error {e : ValidationError} (h : normalize p = .error e) : e = .pathTooLong := by
  unfold normalize at h
  split at h
  · rename_i e' hreduce
    obtain rfl := Except.error.inj h
    obtain ⟨place, c, -, hcheck⟩ := reduce_error hreduce
    unfold depthFailure at hcheck
    split at hcheck
    · cases hcheck
    · exact (Option.some.inj hcheck).symm
  · split at h
    · exact (Except.error.inj h).symm
    · cases h

/-! ## Normal paths -/

/-- A path in normal form: absolute, and either the root or names with one slash before each, so
that it never goes up. -/
structure Normal (q : Bytes) : Prop where
  absolute : isAbsolute q = true
  goesDown : q ≠ [slash] → ∀ c ∈ (q.splitOn slash).tail, GoesDown c
  unslashed : q ≠ [slash] → q.getLast? ≠ some slash

theorem normal_render (h : ∀ c ∈ k, IsComponent c) : Normal (render k) := by
  have habsolute : isAbsolute (render k) = true := by
    rw [render_eq_intercalate]
    rfl
  by_cases hne : k = []
  · subst hne
    exact ⟨habsolute, fun h => absurd rfl h, fun h => absurd rfl h⟩
  have hsplit := splitOn_render h hne
  refine ⟨habsolute, fun _ c hc => ?_, fun _ hlast => ?_⟩
  · rw [hsplit] at hc
    exact (h c hc).toGoesDown
  · -- A slash at the end would leave an empty component behind it.
    obtain ⟨u, hu⟩ := List.getLast?_eq_some_iff.mp hlast
    rw [hu, List.splitOn_append_cons_self, List.splitOn_nil] at hsplit
    have hempty : [] ∈ k := by
      cases hfirst : u.splitOn slash with
      | nil => exact absurd hfirst (List.splitOn_ne_nil slash u)
      | cons c cs =>
        rw [hfirst, List.cons_append] at hsplit
        obtain ⟨-, rfl⟩ := List.cons.inj hsplit
        simp
    exact (h [] hempty).ne_nil rfl

/-- A reduction has no room for the path: too deep on the way, or too long in the end. -/
def Overflows (p : Bytes) : Prop :=
  (∃ pre, pre <+: p.splitOn slash ∧ maxDepth < (walk [] pre).length) ∨
    maxLength < (render (place p)).length

theorem not_overflows_iff :
    ¬Overflows p ↔ Shallow (p.splitOn slash) ∧ (render (place p)).length ≤ maxLength := by
  simp [Overflows, Shallow]

private theorem shallow_render (h : ∀ c ∈ k, IsComponent c) (hdepth : k.length ≤ maxDepth) :
    Shallow ((render k).splitOn slash) := by
  by_cases hne : k = []
  · subst hne
    have hroot : reduce depthFailure [] [[], []] = .ok [] := rfl
    exact passes_depthFailure_iff.mp (reduce_eq_ok_iff.mp hroot).2
  rw [splitOn_render h hne]
  intro pre hpre
  obtain rfl | ⟨pre', rfl, hpre'⟩ := List.prefix_cons_iff.mp hpre
  · exact Nat.zero_le _
  · -- Each of the names goes down from the one before, so no prefix is deeper than the whole.
    have hdown : ∀ c ∈ pre', GoesDown c := fun c hc => (h c (hpre'.subset hc)).toGoesDown
    have hwalk : walk [] ([] :: pre') = pre' := walk_names hdown []
    rw [hwalk]
    exact Nat.le_trans hpre'.length_le hdepth

/-- What a reduction gives is absolute, and reducing it again changes nothing. -/
theorem normal_of_normalize (h : normalize p = .ok q) :
    isAbsolute q = true ∧ normalize q = .ok q := by
  obtain ⟨hshallow, hshort, rfl⟩ := normalize_eq_ok_iff.mp h
  have hcomponents : ∀ c ∈ place p, IsComponent c := fun c => isComponent_of_mem_place
  have hdepth : (place p).length ≤ maxDepth := hshallow _ List.prefix_rfl
  have hplace : place (render (place p)) = place p := place_render hcomponents
  refine ⟨(normal_render hcomponents).absolute, normalize_eq_ok_iff.mpr ?_⟩
  rw [hplace]
  exact ⟨shallow_render hcomponents hdepth, hshort, rfl⟩

/-- Reducing a path fails exactly if the reduction overflows. Otherwise it gives the path of the
place that the components lead to, which is normal and reduces to itself. -/
theorem normalize_overflows_or_normal (p : Bytes) :
    (normalize p = .error .pathTooLong ↔ Overflows p) ∧
      (¬Overflows p → ∃ q, normalize p = .ok q ∧
        q = (if place p = [] then [slash] else (place p).flatMap (slash :: ·)) ∧
        Normal q ∧ normalize q = .ok q) := by
  have hcomponents : ∀ c ∈ place p, IsComponent c := fun c => isComponent_of_mem_place
  have hok (h : ¬Overflows p) : normalize p = .ok (render (place p)) := by
    obtain ⟨hshallow, hshort⟩ := not_overflows_iff.mp h
    exact normalize_eq_ok_iff.mpr ⟨hshallow, hshort, rfl⟩
  refine ⟨⟨fun h => ?_, fun h => ?_⟩, fun h => ?_⟩
  · by_contra hroom
    rw [hok hroom] at h
    cases h
  · cases hresult : normalize p with
    | error e => rw [normalize_error hresult]
    | ok q =>
      obtain ⟨hshallow, hshort, -⟩ := normalize_eq_ok_iff.mp hresult
      exact absurd h (not_overflows_iff.mpr ⟨hshallow, hshort⟩)
  · obtain ⟨hshallow, hshort⟩ := not_overflows_iff.mp h
    have hdepth : (place p).length ≤ maxDepth := hshallow _ List.prefix_rfl
    have hplace : place (render (place p)) = place p := place_render hcomponents
    refine ⟨render (place p), hok h, render_eq _, normal_render hcomponents, ?_⟩
    refine normalize_eq_ok_iff.mpr ⟨shallow_render hcomponents hdepth, ?_, ?_⟩
    · rwa [hplace]
    · rw [hplace]

/-- A path with all that a reduction takes away, and what is left of it. -/
theorem normal_of_dots :
    ¬Overflows (Bytes.ofText "a//b/./c/../../../d/") ∧
      ∃ q, normalize (Bytes.ofText "a//b/./c/../../../d/") = .ok q ∧ Normal q ∧
        normalize q = .ok q ∧ q = Bytes.ofText "/d" := by
  obtain ⟨hfails, hnormal⟩ := normalize_overflows_or_normal (Bytes.ofText "a//b/./c/../../../d/")
  have hroom : ¬Overflows (Bytes.ofText "a//b/./c/../../../d/") := by
    rw [← hfails]
    decide +kernel
  obtain ⟨q, hq, hresult, hnormal, hagain⟩ := hnormal hroom
  refine ⟨hroom, q, hq, hnormal, hagain, ?_⟩
  rw [hresult]
  decide +kernel

/-- It is the depth on the way that counts, though the path ends at the root. -/
example :
    normalize ((List.replicate 33 (Bytes.ofText "a/")).flatten ++
      (List.replicate 33 (Bytes.ofText "../")).flatten) = .error .pathTooLong := by
  decide +kernel

end PanelLink.Path
