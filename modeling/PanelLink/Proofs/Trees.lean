import Mathlib.Algebra.GroupWithZero.Nat
import PanelLink.Proofs.Contents
import PanelLink.Proofs.Reduction

/-!
Trees as a volume keeps them: ascending keys whose components are names, and a directory above each
of them.
-/
namespace PanelLink

structure IsName (name : Bytes) : Prop where
  ne_nil : name ≠ []
  ne_dot : name ≠ dot
  ne_dotDot : name ≠ dotDot
  plain : Path.slash ∉ name
  short : name.length ≤ maxName

/-! ## Keys from paths -/

namespace Volume

variable {path : Bytes} {k : Key}

private theorem nameFailure_eq_none_iff {stack : List Bytes} {name : Bytes} :
    nameFailure stack name = none ↔ name.length ≤ maxName := by
  unfold nameFailure
  split <;> simp_all

/-- The store takes a path where it leads, if the names on the way are short enough. -/
theorem key_eq_ok_iff :
    key path = .ok k ↔ k = Path.place path ∧
      ∀ name ∈ path.splitOn Path.slash, Path.GoesDown name → name.length ≤ maxName := by
  rw [key, Path.split_eq_splitOn, Path.reduce_eq_ok_iff]
  refine and_congr_right fun _ => ⟨fun h name hname hdown => ?_, ?_⟩
  · obtain ⟨pre, post, hpath⟩ := List.append_of_mem hname
    exact nameFailure_eq_none_iff.mp (h pre name post hpath hdown)
  · intro h pre name post hpath hdown
    exact nameFailure_eq_none_iff.mpr (h name (by rw [hpath]; simp) hdown)

/-- Every path leads to a key of names. -/
theorem isName_of_key (h : key path = .ok k) : ∀ name ∈ k, IsName name := by
  obtain ⟨rfl, hshort⟩ := key_eq_ok_iff.mp h
  intro name hname
  obtain ⟨hdown, hplain⟩ := Path.isComponent_of_mem_place hname
  have hmem : name ∈ path.splitOn Path.slash := by
    obtain hroot | ⟨hmem, -⟩ := Path.mem_walk hname
    · exact absurd hroot List.not_mem_nil
    · exact hmem
  exact ⟨hdown.ne_nil, hdown.ne_dot, hdown.ne_dotDot, hplain, hshort name hmem hdown⟩

/-- The path of a key leads back to it, so keys with one path are one key. -/
theorem key_intercalate (h : ∀ name ∈ k, IsName name) :
    key (List.intercalate [Path.slash] k) = .ok k := by
  have hcomponents : ∀ name ∈ k, Path.IsComponent name := fun name hname =>
    ⟨⟨(h name hname).ne_nil, (h name hname).ne_dot, (h name hname).ne_dotDot⟩, (h name hname).plain⟩
  refine key_eq_ok_iff.mpr ⟨(Path.place_intercalate hcomponents).symm, fun name hname hdown => ?_⟩
  by_cases hne : k = []
  · subst hne
    exact absurd (List.mem_singleton.mp hname) hdown.ne_nil
  · rw [List.splitOn_intercalate Path.slash (fun c hc => (h c hc).plain) hne] at hname
    exact (h name hname).short

end Volume

namespace Tree

variable {t : Tree} {k key : Key} {n old : Node}

/-! ## The order of the keys -/

def Sorted (t : Tree) : Prop :=
  t.Pairwise fun x y => x.1 < y.1

theorem mem_of_get? (h : t.get? k = some n) : (k, n) ∈ t := by
  induction t with
  | nil => cases h
  | cons x t ih =>
    obtain ⟨k', n'⟩ := x
    unfold get? at h
    split at h
    · rename_i heq
      subst heq
      obtain rfl := Option.some.inj h
      exact List.mem_cons_self
    · exact List.mem_cons_of_mem _ (ih h)

theorem Sorted.get?_of_mem (hs : t.Sorted) (h : (k, n) ∈ t) : t.get? k = some n := by
  induction t with
  | nil => cases h
  | cons x t ih =>
    obtain ⟨k', n'⟩ := x
    obtain ⟨hfirst, hrest⟩ := List.pairwise_cons.mp hs
    obtain heq | h := List.mem_cons.mp h
    · cases heq
      simp only [get?, if_true]
    · have hlt : k' < k := hfirst _ h
      have hne : k' ≠ k := by
        rintro rfl
        exact List.lt_irrefl k' hlt
      rw [get?, if_neg hne]
      exact ih hrest h

theorem mem_insert {x : Key × Node} (h : x ∈ t.insert key n) : x = (key, n) ∨ x ∈ t := by
  induction t with
  | nil => exact .inl (List.mem_singleton.mp h)
  | cons y t ih =>
    obtain ⟨k', n'⟩ := y
    unfold insert at h
    split at h
    · obtain rfl | h := List.mem_cons.mp h
      · exact .inl rfl
      · exact .inr (List.mem_cons_of_mem _ h)
    split at h
    · exact List.mem_cons.mp h
    · obtain rfl | h := List.mem_cons.mp h
      · exact .inr List.mem_cons_self
      · obtain hx | hx := ih h
        · exact .inl hx
        · exact .inr (List.mem_cons_of_mem _ hx)

theorem Sorted.insert (hs : t.Sorted) (key : Key) (n : Node) : (t.insert key n).Sorted := by
  induction t with
  | nil => exact List.pairwise_singleton _ _
  | cons x t ih =>
    obtain ⟨k', n'⟩ := x
    obtain ⟨hfirst, hrest⟩ := List.pairwise_cons.mp hs
    unfold Tree.insert
    split
    · rename_i heq
      subst heq
      exact List.pairwise_cons.mpr ⟨hfirst, hrest⟩
    rename_i hne
    split
    · rename_i hlt
      refine List.pairwise_cons.mpr ⟨fun y hy => ?_, hs⟩
      obtain rfl | hy := List.mem_cons.mp hy
      · exact hlt
      · exact List.lt_trans hlt (hfirst y hy)
    · rename_i hnlt
      have hgt : k' < key := by
        obtain hlt | heq | hgt := Std.lt_trichotomy key k'
        · exact absurd hlt hnlt
        · exact absurd heq.symm hne
        · exact hgt
      refine List.pairwise_cons.mpr ⟨fun y hy => ?_, ih hrest⟩
      obtain rfl | hy := mem_insert hy
      · exact hgt
      · exact hfirst y hy

theorem Sorted.erase (hs : t.Sorted) (key : Key) : (t.erase key).Sorted :=
  List.Pairwise.filter _ hs

/-! ## The weight of the nodes -/

def weight (w : Node → Nat) (t : Tree) : Nat :=
  (t.nodes.map w).sum

theorem weight_cons (w : Node → Nat) (x : Key × Node) (t : Tree) :
    weight w (x :: t) = w x.2 + weight w t := by
  simp only [weight, nodes, List.map_cons, List.sum_cons]

theorem Sorted.weight_insert_old (hs : t.Sorted) (w : Node → Nat) (h : t.get? key = some old) :
    weight w (t.insert key n) + w old = weight w t + w n := by
  induction t with
  | nil => cases h
  | cons x t ih =>
    obtain ⟨k', n'⟩ := x
    obtain ⟨hfirst, hrest⟩ := List.pairwise_cons.mp hs
    unfold get? at h
    unfold Tree.insert
    split at h
    · rename_i heq
      obtain rfl := Option.some.inj h
      rw [if_pos heq, weight_cons, weight_cons]
      dsimp only
      omega
    · rename_i hne
      have hnlt : ¬ key < k' := fun hlt =>
        List.lt_irrefl key (List.lt_trans hlt (hfirst _ (mem_of_get? h)))
      have hw := ih hrest h
      rw [if_neg hne, if_neg hnlt, weight_cons, weight_cons]
      omega

theorem weight_insert_new (w : Node → Nat) (h : t.get? key = none) :
    weight w (t.insert key n) = weight w t + w n := by
  induction t with
  | nil => simp only [insert, weight_cons, Nat.add_comm]
  | cons x t ih =>
    obtain ⟨k', n'⟩ := x
    unfold get? at h
    unfold insert
    split at h
    · cases h
    · rename_i hne
      have hw := ih h
      rw [if_neg hne]
      split
      · rw [weight_cons, Nat.add_comm]
      · rw [weight_cons, weight_cons]
        omega

theorem weight_erase_le (w : Node → Nat) (key : Key) (t : Tree) :
    weight w (t.erase key) ≤ weight w t := by
  unfold erase
  induction t with
  | nil => exact Nat.le_refl _
  | cons x t ih =>
    rw [List.filter_cons, weight_cons]
    split
    · rw [weight_cons]
      omega
    · omega

/-! ## Entries of a directory -/

theorem childName?_eq_some {dir : Key} {name : Bytes} :
    childName? dir k = some name ↔ k = dir ++ [name] := by
  unfold childName?
  constructor
  · intro h
    split at h
    · rename_i hdir
      obtain ⟨front, rfl⟩ := List.getLast?_eq_some_iff.mp h
      rw [List.dropLast_concat] at hdir
      rw [hdir]
    · cases h
  · rintro rfl
    rw [List.dropLast_concat, if_pos rfl, List.getLast?_concat]

theorem mem_children {dir : Key} {e : DirEntry} :
    e ∈ t.children dir ↔
      ∃ name n, (dir ++ [name], n) ∈ t ∧ e = ⟨name, n.kind, n.size⟩ := by
  unfold children
  rw [List.mem_filterMap]
  constructor
  · rintro ⟨⟨k, n⟩, hmem, he⟩
    obtain ⟨name, hname, rfl⟩ := Option.map_eq_some_iff.mp he
    obtain rfl := childName?_eq_some.mp hname
    exact ⟨name, n, hmem, rfl⟩
  · rintro ⟨name, n, hmem, rfl⟩
    exact ⟨_, hmem, Option.map_eq_some_iff.mpr ⟨name, childName?_eq_some.mpr rfl, rfl⟩⟩

theorem lt_of_append_lt {dir : Key} {a b : Bytes} (h : dir ++ [a] < dir ++ [b]) : a < b := by
  induction dir with
  | nil =>
    obtain h | ⟨-, h⟩ := List.cons_lt_cons_iff.mp h
    · exact h
    · exact absurd h (List.lt_irrefl [])
  | cons c dir ih =>
    obtain h | ⟨-, h⟩ := List.cons_lt_cons_iff.mp h
    · exact absurd h (List.lt_irrefl c)
    · exact ih h

/-! ## The shape of a tree -/

/-- The invariant of the tree on a formatted volume. -/
structure Wellformed (t : Tree) : Prop where
  sorted : t.Sorted
  root : t.get? [] = some .dir
  names (k : Key) (n : Node) : t.get? k = some n → ∀ name ∈ k, IsName name
  parents (k : Key) (n : Node) : k ≠ [] → t.get? k = some n → t.get? k.dropLast = some .dir

theorem wellformed_root : Wellformed Tree.root := by
  have honly (k : Key) (n : Node) (h : Tree.root.get? k = some n) : k = [] := by
    by_cases hk : [] = k
    · exact hk.symm
    · rw [Tree.root, get?, if_neg hk] at h
      cases h
  constructor
  case sorted => exact List.pairwise_singleton _ _
  case root => rfl
  case names =>
    intro k n h
    simp [honly k n h]
  case parents =>
    intro k n hne h
    exact absurd (honly k n h) hne

namespace Wellformed

theorem ne_nil_of_file (h : t.Wellformed) {contents : Bytes}
    (hk : t.get? k = some (.file contents)) : k ≠ [] := by
  rintro rfl
  rw [h.root] at hk
  cases hk

/-- A file has nothing below it. -/
theorem get?_below_file (h : t.Wellformed) {contents : Bytes}
    (hk : t.get? k = some (.file contents)) {rest : Key} (hne : rest ≠ []) :
    t.get? (k ++ rest) = none := by
  -- The way down from the file is as long as the way up to it; only the last step meets the file.
  induction hlen : rest.length generalizing rest with
  | zero => exact absurd (List.eq_nil_of_length_eq_zero hlen) hne
  | succ m ih =>
    cases hget : t.get? (k ++ rest) with
    | none => rfl
    | some n =>
      have hdir : t.get? (k ++ rest.dropLast) = some .dir := by
        rw [← List.dropLast_append_of_ne_nil hne]
        exact h.parents _ n (List.append_ne_nil_of_right_ne_nil _ hne) hget
      by_cases hfirst : rest.dropLast = []
      · rw [hfirst, List.append_nil, hk] at hdir
        cases hdir
      · have hlen' : rest.dropLast.length = m := by
          rw [List.length_dropLast, hlen]
          rfl
        rw [ih hfirst hlen'] at hdir
        cases hdir

/-- A file may take the place of a file, and anything an empty place in a directory. -/
theorem insert (h : t.Wellformed) (hk : t.get? k ≠ some .dir)
    (hparent : t.get? k.dropLast = some .dir) (hnames : ∀ name ∈ k, IsName name) (n : Node) :
    (t.insert k n).Wellformed := by
  have hne : k ≠ [] := by
    rintro rfl
    exact hk h.root
  have hkeep {k' : Key} (hdir : t.get? k' = some .dir) : (t.insert k n).get? k' = some .dir := by
    have hne' : k ≠ k' := by
      rintro rfl
      exact hk hdir
    rw [get?_insert, if_neg hne', hdir]
  constructor
  case sorted => exact h.sorted.insert k n
  case root => exact hkeep h.root
  case names =>
    intro k' n' h'
    rw [get?_insert] at h'
    split at h'
    · rename_i heq
      exact heq ▸ hnames
    · exact h.names k' n' h'
  case parents =>
    intro k' n' hne' h'
    rw [get?_insert] at h'
    split at h'
    · rename_i heq
      exact hkeep (heq ▸ hparent)
    · exact hkeep (h.parents k' n' hne' h')

/-- What has nothing in it may go, but not the root. -/
theorem erase (h : t.Wellformed) (hne : k ≠ []) (hk : t.get? k = some n)
    (hleaf : n = .dir → t.children k = []) : (t.erase k).Wellformed := by
  have hempty (k' : Key) (n' : Node) (hne' : k' ≠ []) (h' : t.get? k' = some n') :
      k'.dropLast ≠ k := by
    rintro rfl
    have hdir := h.parents k' n' hne' h'
    obtain rfl : n = .dir := Option.some.inj (hk.symm.trans hdir)
    have hchild : (⟨k'.getLast hne', n'.kind, n'.size⟩ : DirEntry) ∈ t.children k'.dropLast := by
      refine mem_children.mpr ⟨k'.getLast hne', n', ?_, rfl⟩
      rw [List.dropLast_concat_getLast]
      exact mem_of_get? h'
    rw [hleaf rfl] at hchild
    exact List.not_mem_nil hchild
  constructor
  case sorted => exact h.sorted.erase k
  case root => rw [get?_erase, if_neg hne.symm, h.root]
  case names =>
    intro k' n' h'
    rw [get?_erase] at h'
    split at h'
    · cases h'
    · exact h.names k' n' h'
  case parents =>
    intro k' n' hne' h'
    rw [get?_erase] at h'
    split at h'
    · cases h'
    · rw [get?_erase, if_neg (hempty k' n' hne' h')]
      exact h.parents k' n' hne' h'

/-- A directory is listed by what stands in it. -/
theorem mem_children (h : t.Wellformed) {dir : Key} {e : DirEntry} :
    e ∈ t.children dir ↔
      ∃ n, t.get? (dir ++ [e.name]) = some n ∧ e.kind = n.kind ∧ e.size = n.size := by
  rw [Tree.mem_children]
  constructor
  · rintro ⟨name, n, hmem, rfl⟩
    exact ⟨n, h.sorted.get?_of_mem hmem, rfl, rfl⟩
  · rintro ⟨n, hget, hkind, hsize⟩
    obtain ⟨name, kind, size⟩ := e
    dsimp only at hget hkind hsize
    subst hkind hsize
    exact ⟨name, n, mem_of_get? hget, rfl⟩

/-- The names of what stands in a directory ascend, so none comes twice. -/
theorem children_sorted (h : t.Wellformed) (dir : Key) :
    (t.children dir).Pairwise fun x y => x.name < y.name := by
  unfold children
  refine h.sorted.filterMap _ fun x y hlt a ha b hb => ?_
  obtain ⟨name, hname, rfl⟩ := Option.map_eq_some_iff.mp ha
  obtain ⟨name', hname', rfl⟩ := Option.map_eq_some_iff.mp hb
  rw [childName?_eq_some.mp hname, childName?_eq_some.mp hname'] at hlt
  exact lt_of_append_lt hlt

/-- Neither of the dot entries is a name. -/
theorem isDot_of_mem_children (h : t.Wellformed) {dir : Key} {e : DirEntry}
    (he : e ∈ t.children dir) : e.isDot = false := by
  obtain ⟨n, hget, -⟩ := h.mem_children.mp he
  have hname := h.names _ n hget e.name (List.mem_append_right dir List.mem_cons_self)
  unfold DirEntry.isDot
  rw [decide_eq_false hname.ne_dot, decide_eq_false hname.ne_dotDot]
  rfl

end Wellformed

end Tree

end PanelLink
