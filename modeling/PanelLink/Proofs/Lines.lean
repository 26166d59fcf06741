import PanelLink.Config.Parse

/-!
What a line of a settings file says, as a grammar: relations between a text and its parts that know
nothing of how the parts are found. Each relation is the graph of the function that finds them.
-/
namespace PanelLink

namespace Text

variable {s t t' a b cs ds : List Char} {c : Char}

/-! ## Lines -/

/-- A text falls into lines. A line feed ends a line, and so does a carriage return with a line feed
after it; what is left at the end is a line if it is not empty. -/
inductive Splits : List Char → List (List Char) → Prop
  | empty : Splits [] []
  | last {l : List Char} (hne : l ≠ []) (hl : '\n' ∉ l) : Splits l [l]
  | feed {l rest : List Char} {ls : List (List Char)} (hl : '\n' ∉ l) (hr : l.getLast? ≠ some '\r')
      (h : Splits rest ls) : Splits (l ++ '\n' :: rest) (l :: ls)
  | returned {l rest : List Char} {ls : List (List Char)} (hl : '\n' ∉ l) (h : Splits rest ls) :
      Splits (l ++ '\r' :: '\n' :: rest) (l :: ls)

/-- A character that ends no line. -/
theorem lines_cons (hc : c ≠ '\n') (hcs : c = '\r' → cs.head? ≠ some '\n') :
    lines (c :: cs) = match lines cs with
      | [] => [[c]]
      | l :: ls => (c :: l) :: ls := by
  refine lines.eq_4 c cs hc ?_
  rintro cs rfl rfl
  exact hcs rfl rfl

theorem lines_last {l : List Char} (hne : l ≠ []) (hl : '\n' ∉ l) : lines l = [l] := by
  induction l with
  | nil => exact absurd rfl hne
  | cons c cs ih =>
    obtain ⟨hc, hcs⟩ := not_or.mp (mt List.mem_cons.mpr hl)
    have hhead : c = '\r' → cs.head? ≠ some '\n' := fun _ h => hcs (List.mem_of_head? h)
    rw [lines_cons (Ne.symm hc) hhead]
    by_cases hnil : cs = []
    · rw [hnil]
      rfl
    · rw [ih hnil hcs]

theorem lines_feed {l : List Char} (rest : List Char) (hl : '\n' ∉ l)
    (hr : l.getLast? ≠ some '\r') : lines (l ++ '\n' :: rest) = l :: lines rest := by
  induction l with
  | nil => rfl
  | cons c cs ih =>
    obtain ⟨hc, hcs⟩ := not_or.mp (mt List.mem_cons.mpr hl)
    have hhead : c = '\r' → (cs ++ '\n' :: rest).head? ≠ some '\n' := by
      rintro rfl h
      cases cs with
      | nil => exact hr rfl
      | cons d ds => exact hcs (List.mem_of_head? h)
    have hlast : cs.getLast? ≠ some '\r' := by
      intro h
      exact hr (by rw [List.getLast?_cons, h]; rfl)
    rw [List.cons_append, lines_cons (Ne.symm hc) hhead, ih hcs hlast]

theorem lines_returned {l : List Char} (rest : List Char) (hl : '\n' ∉ l) :
    lines (l ++ '\r' :: '\n' :: rest) = l :: lines rest := by
  induction l with
  | nil => rfl
  | cons c cs ih =>
    obtain ⟨hc, hcs⟩ := not_or.mp (mt List.mem_cons.mpr hl)
    have hhead : c = '\r' → (cs ++ '\r' :: '\n' :: rest).head? ≠ some '\n' := by
      rintro rfl h
      cases cs with
      | nil => cases h
      | cons d ds => exact hcs (List.mem_of_head? h)
    rw [List.cons_append, lines_cons (Ne.symm hc) hhead, ih hcs]

theorem splits_lines (text : List Char) : Splits text (lines text) := by
  -- A character joins the first line of what comes after it.
  have hjoin {c : Char} {l : List Char} (hc : c = '\n' → False) (hl : '\n' ∉ l) :
      '\n' ∉ c :: l := by
    intro h
    obtain rfl | h := List.mem_cons.mp h
    · exact hc rfl
    · exact hl h
  fun_induction lines text with
  | case1 => exact .empty
  | case2 cs ih =>
    have h : Splits ([] ++ '\n' :: cs) ([] :: lines cs) := .feed List.not_mem_nil nofun ih
    exact h
  | case3 cs ih =>
    have h : Splits ([] ++ '\r' :: '\n' :: cs) ([] :: lines cs) := .returned List.not_mem_nil ih
    exact h
  | case4 c cs hc hr hnil ih =>
    rw [hnil] at ih
    cases ih
    exact .last (List.cons_ne_nil _ _) (hjoin hc List.not_mem_nil)
  | case5 c cs hc hr l ls heq ih =>
    rw [heq] at ih
    cases ih with
    | last hne hl => exact .last (List.cons_ne_nil _ _) (hjoin hc hl)
    | @feed _ rest _ hl hlast h =>
      have hlast' : (c :: l).getLast? ≠ some '\r' := by
        cases l with
        | nil =>
          intro h
          exact hr rest (Option.some.inj h) rfl
        | cons d ds => exact hlast
      have hfeed : Splits (c :: l ++ '\n' :: rest) ((c :: l) :: ls) := .feed (hjoin hc hl) hlast' h
      exact hfeed
    | @returned _ rest _ hl h =>
      have hreturned : Splits (c :: l ++ '\r' :: '\n' :: rest) ((c :: l) :: ls) :=
        .returned (hjoin hc hl) h
      exact hreturned

theorem splits_iff {text : List Char} {ls : List (List Char)} :
    Splits text ls ↔ ls = lines text := by
  constructor
  · intro h
    induction h with
    | empty => rfl
    | last hne hl => exact (lines_last hne hl).symm
    | feed hl hr _ ih => rw [lines_feed _ hl hr, ih]
    | returned hl _ ih => rw [lines_returned _ hl, ih]
  · rintro rfl
    exact splits_lines text

/-! ## Blanks -/

def Trims (s t : List Char) : Prop :=
  ∃ a b, s = a ++ t ++ b ∧ (∀ c ∈ a, isBlank c = true) ∧ (∀ c ∈ b, isBlank c = true) ∧
    (∀ c, t.head? = some c → isBlank c = false) ∧ ∀ c, t.getLast? = some c → isBlank c = false

theorem trimRight_cons (c : Char) (cs : List Char) :
    trimRight (c :: cs) =
      if trimRight cs = [] then (if isBlank c then [] else [c]) else c :: trimRight cs := by
  rw [trimRight]
  cases trimRight cs with
  | nil => rfl
  | cons d ds => rfl

private theorem trimRight_blank (hb : ∀ c ∈ b, isBlank c = true) : trimRight b = [] := by
  induction b with
  | nil => rfl
  | cons c cs ih =>
    rw [trimRight_cons, if_pos (ih fun d hd => hb d (List.mem_cons_of_mem c hd)),
      if_pos (hb c List.mem_cons_self)]

theorem trimRight_append (t : List Char) (hb : ∀ c ∈ b, isBlank c = true) :
    trimRight (t ++ b) = trimRight t := by
  induction t with
  | nil => exact trimRight_blank hb
  | cons c cs ih => rw [List.cons_append, trimRight_cons, trimRight_cons, ih]

theorem trimRight_self (ht : ∀ c, t.getLast? = some c → isBlank c = false) : trimRight t = t := by
  induction t with
  | nil => rfl
  | cons c cs ih =>
    rw [trimRight_cons]
    cases cs with
    | nil => simp [trimRight, ht c rfl]
    | cons d ds =>
      have hrest : trimRight (d :: ds) = d :: ds := ih ht
      rw [hrest, if_neg (List.cons_ne_nil d ds)]

/-- What is cut off on the right is blank, and what is left does not end in a blank. -/
theorem trimRight_spec (s : List Char) :
    (∃ b, s = trimRight s ++ b ∧ ∀ c ∈ b, isBlank c = true) ∧
      ∀ c, (trimRight s).getLast? = some c → isBlank c = false := by
  induction s with
  | nil => exact ⟨⟨[], rfl, nofun⟩, nofun⟩
  | cons c cs ih =>
    obtain ⟨⟨b, hb, hblank⟩, hlast⟩ := ih
    rw [trimRight_cons]
    by_cases hnil : trimRight cs = []
    · rw [if_pos hnil]
      rw [hnil, List.nil_append] at hb
      by_cases hc : isBlank c = true
      · rw [if_pos hc]
        refine ⟨⟨c :: cs, rfl, ?_⟩, nofun⟩
        rintro d (_ | ⟨_, hd⟩)
        · exact hc
        · exact hblank d (hb ▸ hd)
      · rw [if_neg hc]
        refine ⟨⟨cs, rfl, hb.symm ▸ hblank⟩, ?_⟩
        rintro d hd
        obtain rfl : c = d := Option.some.inj hd
        exact Bool.eq_false_iff.mpr hc
    · rw [if_neg hnil]
      refine ⟨⟨b, congrArg (c :: ·) hb, hblank⟩, fun d hd => hlast d ?_⟩
      rwa [List.getLast?_cons_of_ne_nil hnil] at hd

private theorem trims_trim (s : List Char) : Trims s (trim s) := by
  obtain ⟨⟨b, hb, hblank⟩, hlast⟩ := trimRight_spec (s.dropWhile isBlank)
  refine ⟨s.takeWhile isBlank, b, ?_, ?_, hblank, ?_, hlast⟩
  · rw [List.append_assoc]
    exact List.takeWhile_append_dropWhile.symm.trans (congrArg _ hb)
  · exact List.all_eq_true.mp List.all_takeWhile
  · intro c hc
    have hc : (trimRight (s.dropWhile isBlank)).head? = some c := hc
    have hhead : (s.dropWhile isBlank).head? = some c := by
      rw [hb, List.head?_append, hc]
      rfl
    have hnot := List.head?_dropWhile_not isBlank s
    rwa [hhead] at hnot

theorem trims_iff : Trims s t ↔ t = trim s := by
  constructor
  · rintro ⟨a, b, rfl, ha, hb, hhead, hlast⟩
    cases t with
    | nil =>
      have hall : ∀ c ∈ a ++ b, isBlank c = true := by
        intro c hc
        obtain hc | hc := List.mem_append.mp hc
        · exact ha c hc
        · exact hb c hc
      have hdrop : (a ++ b).dropWhile isBlank = [] := by
        rw [← List.append_nil (a ++ b), List.dropWhile_append_of_pos hall, List.dropWhile_nil]
      rw [List.append_nil, trim, hdrop, trimRight]
    | cons c cs =>
      have hc : ¬isBlank c = true := Bool.eq_false_iff.mp (hhead c rfl)
      have hdrop : (a ++ c :: cs ++ b).dropWhile isBlank = c :: cs ++ b := by
        rw [List.append_assoc, List.dropWhile_append_of_pos ha, List.cons_append,
          List.dropWhile_cons_of_neg hc]
      rw [trim, hdrop, trimRight_append _ hb, trimRight_self hlast]
  · rintro rfl
    exact trims_trim s

/-! ## Parts of a line -/

theorem between?_eq_some {first last : Char} {inner : List Char} :
    between? first last t = some inner ↔ t = first :: inner ++ [last] := by
  constructor
  · intro h
    cases t with
    | nil => cases h
    | cons c cs =>
      by_cases hends : c = first ∧ cs.getLast? = some last
      · rw [between?, if_pos hends] at h
        obtain ⟨rfl, hlast⟩ := hends
        obtain ⟨init, rfl⟩ := List.getLast?_eq_some_iff.mp hlast
        rw [List.dropLast_concat] at h
        rw [Option.some.inj h]
        rfl
      · rw [between?, if_neg hends] at h
        cases h
  · rintro rfl
    have hends : first = first ∧ (inner ++ [last]).getLast? = some last :=
      ⟨rfl, List.getLast?_concat⟩
    rw [List.cons_append, between?, if_pos hends, List.dropLast_concat]

theorem between?_eq_none {first last : Char} :
    between? first last t = none ↔ ∀ inner, t ≠ first :: inner ++ [last] := by
  rw [Option.eq_none_iff_forall_ne_some]
  exact forall_congr' fun inner => not_congr between?_eq_some

theorem splitAt?_eq_some {sep : Char} {l r : List Char} :
    splitAt? sep t = some (l, r) ↔ t = l ++ sep :: r ∧ sep ∉ l := by
  induction t generalizing l with
  | nil => simp [splitAt?]
  | cons c cs ih =>
    unfold splitAt?
    by_cases hc : c = sep
    · subst hc
      rw [if_pos rfl]
      constructor
      · intro h
        cases h
        exact ⟨rfl, List.not_mem_nil⟩
      · rintro ⟨h, hl⟩
        cases l with
        | nil => rw [(List.cons.inj h).2]
        | cons d ds => exact absurd ((List.cons.inj h).1 ▸ List.mem_cons_self) hl
    · rw [if_neg hc]
      cases l with
      | nil =>
        constructor
        · intro h
          obtain ⟨x, -, hx⟩ := Option.map_eq_some_iff.mp h
          cases hx
        · rintro ⟨h, -⟩
          exact absurd (List.cons.inj h).1 hc
      | cons d ds =>
        constructor
        · intro h
          obtain ⟨⟨x, y⟩, hx, hy⟩ := Option.map_eq_some_iff.mp h
          cases hy
          obtain ⟨rfl, hds⟩ := ih.mp hx
          exact ⟨rfl, List.not_mem_cons_of_ne_of_not_mem (Ne.symm hc) hds⟩
        · rintro ⟨h, hsep⟩
          obtain ⟨rfl, hcs⟩ := List.cons.inj h
          have hds : sep ∉ ds := fun hmem => hsep (List.mem_cons_of_mem c hmem)
          rw [ih.mpr ⟨hcs, hds⟩]
          rfl

theorem splitAt?_eq_none {sep : Char} :
    splitAt? sep t = none ↔ ∀ l r, t = l ++ sep :: r → sep ∈ l := by
  rw [Option.eq_none_iff_forall_ne_some]
  constructor
  · intro h l r ht
    refine Decidable.byContradiction fun hl => ?_
    exact h (l, r) (splitAt?_eq_some.mpr ⟨ht, hl⟩)
  · rintro h ⟨l, r⟩ hparts
    obtain ⟨ht, hl⟩ := splitAt?_eq_some.mp hparts
    exact hl (h l r ht)

end Text

namespace Config

/-- The text has an even number of quotes, so that what follows it is not quoted. -/
def Outside (s : List Char) : Prop :=
  s.count '"' % 2 = 0

/-- `kept` is the line without its comment, which begins at the first `#` outside of quotes. -/
def Uncomments (raw kept : List Char) : Prop :=
  (raw = kept ∨ Outside kept ∧ ∃ comment, raw = kept ++ '#' :: comment) ∧
    ∀ a b, kept = a ++ '#' :: b → ¬Outside a

/-- The value without the quotes around it, if it has both. -/
def Unquotes (value inner : List Char) : Prop :=
  value = '"' :: inner ++ ['"'] ∨ value = inner ∧ ∀ v, value ≠ '"' :: v ++ ['"']

/-- What a line without comment or blanks at its ends says. A header has its name in brackets;
anything else is cut at its first `=`, and there is something on either side. -/
inductive Says : List Char → Line → Prop
  | blank : Says [] .blank
  | header {inner name : List Char} (hname : Text.Trims inner name) :
      Says ('[' :: inner ++ [']']) (.header name)
  | assignment {left right name value inner : List Char}
      (hbare : ∀ x, left ++ '=' :: right ≠ '[' :: x ++ [']']) (hfirst : '=' ∉ left)
      (hname : Text.Trims left name) (hvalue : Text.Trims right value) (hn : name ≠ [])
      (hv : value ≠ []) (hinner : Unquotes value inner) :
      Says (left ++ '=' :: right) (.assignment name inner)
  | malformed {t : List Char} (hne : t ≠ []) (hbare : ∀ x, t ≠ '[' :: x ++ [']'])
      (h : ∀ left right, t = left ++ '=' :: right → '=' ∉ left →
        Text.Trims left [] ∨ Text.Trims right []) : Says t .malformed

def Line.Reads (l : Line) (raw : List Char) : Prop :=
  ∃ kept t, Uncomments raw kept ∧ Text.Trims kept t ∧ Says t l

section

variable {raw kept kept' value inner : List Char} {l : Line}

@[simp] theorem outside_nil : Outside [] := rfl

private theorem outside_quote (s : List Char) : Outside ('"' :: s) ↔ ¬Outside s := by
  unfold Outside
  rw [List.count_cons_self]
  omega

private theorem outside_cons {c : Char} (hc : c ≠ '"') (s : List Char) :
    Outside (c :: s) ↔ Outside s := by
  unfold Outside
  rw [List.count_cons_of_ne hc]

/-- A comment is cut off where it begins, whether the line begins between quotes or not. -/
theorem cutComment_spec (quoted : Bool) (raw : List Char) :
    (raw = cutComment quoted raw ∨ (Outside (cutComment quoted raw) ↔ quoted = false) ∧
        ∃ comment, raw = cutComment quoted raw ++ '#' :: comment) ∧
      ∀ a b, cutComment quoted raw = a ++ '#' :: b → ¬(Outside a ↔ quoted = false) := by
  -- One more character in front, which may turn inside into outside.
  have hcons {c : Char} {cs kept : List Char} {q q' : Bool} (hc : c = '#' → q = true)
      (hturn : ∀ s, (Outside (c :: s) ↔ q = false) ↔ (Outside s ↔ q' = false))
      (h : (cs = kept ∨ (Outside kept ↔ q' = false) ∧ ∃ comment, cs = kept ++ '#' :: comment) ∧
        ∀ a b, kept = a ++ '#' :: b → ¬(Outside a ↔ q' = false)) :
      (c :: cs = c :: kept ∨ (Outside (c :: kept) ↔ q = false) ∧
          ∃ comment, c :: cs = c :: kept ++ '#' :: comment) ∧
        ∀ a b, c :: kept = a ++ '#' :: b → ¬(Outside a ↔ q = false) := by
    obtain ⟨hkept, hfirst⟩ := h
    constructor
    · obtain rfl | ⟨hout, comment, rfl⟩ := hkept
      · exact .inl rfl
      · exact .inr ⟨(hturn kept).mpr hout, comment, rfl⟩
    · intro a b hab
      cases a with
      | nil =>
        obtain ⟨rfl, -⟩ := List.cons.inj hab
        simp [hc rfl]
      | cons d ds =>
        obtain ⟨rfl, hds⟩ := List.cons.inj hab
        rw [hturn]
        exact hfirst ds b hds
  induction raw generalizing quoted with
  | nil => exact ⟨.inl rfl, fun a b h => by cases a <;> cases h⟩
  | cons c cs ih =>
    unfold cutComment
    by_cases hquote : c = '"'
    · subst hquote
      rw [if_pos rfl]
      refine hcons (fun hc => absurd hc (by decide)) (fun s => ?_) (ih !quoted)
      rw [outside_quote]
      cases quoted <;> simp
    rw [if_neg hquote]
    by_cases hcut : c = '#' ∧ quoted = false
    · obtain ⟨rfl, rfl⟩ := hcut
      rw [if_pos ⟨rfl, rfl⟩]
      refine ⟨.inr ⟨by simp, cs, rfl⟩, fun a b h => by cases a <;> cases h⟩
    · rw [if_neg hcut]
      refine hcons (fun hc => ?_) (fun s => by rw [outside_cons hquote]) (ih quoted)
      exact eq_true_of_ne_false fun hq => hcut ⟨hc, hq⟩

/-- A line has a comment or none, and the comment begins at one place. -/
theorem Uncomments.unique (h : Uncomments raw kept) (h' : Uncomments raw kept') : kept = kept' := by
  -- Nothing that is kept goes on with a comment outside of quotes.
  have hends {k k' rest : List Char} (hk : Uncomments raw k) (hout : Outside k')
      (heq : k = k' ++ '#' :: rest) : False :=
    hk.2 k' rest heq hout
  obtain hraw | ⟨hout, comment, hraw⟩ := h.1 <;> obtain hraw' | ⟨hout', comment', hraw'⟩ := h'.1
  · exact hraw.symm.trans hraw'
  · exact (hends h hout' (hraw.symm.trans hraw')).elim
  · exact (hends h' hout (hraw'.symm.trans hraw)).elim
  · obtain ⟨x, hx, hy⟩ | ⟨x, hx, hy⟩ := List.append_eq_append_iff.mp (hraw.symm.trans hraw')
    · cases x with
      | nil => simpa using hx.symm
      | cons c cs =>
        obtain ⟨rfl, -⟩ := List.cons.inj hy
        exact (hends h' hout hx).elim
    · cases x with
      | nil => simpa using hx
      | cons c cs =>
        obtain ⟨rfl, -⟩ := List.cons.inj hy
        exact (hends h hout' hx).elim

theorem uncomments_iff : Uncomments raw kept ↔ kept = cutComment false raw := by
  have hcut : Uncomments raw (cutComment false raw) := by
    simpa [Uncomments] using cutComment_spec false raw
  constructor
  · exact fun h => h.unique hcut
  · rintro rfl
    exact hcut

private theorem unquotes_iff : Unquotes value inner ↔ inner = unquote value := by
  unfold Unquotes unquote
  cases hb : Text.between? '"' '"' value with
  | some v =>
    have hv := Text.between?_eq_some.mp hb
    constructor
    · rintro (hinner | ⟨-, hbare⟩)
      · exact Option.some.inj ((Text.between?_eq_some.mpr hinner).symm.trans hb)
      · exact absurd hv (hbare v)
    · rintro rfl
      exact .inl hv
  | none =>
    have hbare := Text.between?_eq_none.mp hb
    constructor
    · rintro (hinner | ⟨rfl, -⟩)
      · exact absurd hinner (hbare inner)
      · rfl
    · rintro rfl
      exact .inr ⟨rfl, hbare⟩

/-- There is only one thing that a line says. -/
theorem Says.eq (h : Says (Text.trim (cutComment false raw)) l) : l = Line.ofText raw := by
  unfold Line.ofText
  generalize Text.trim (cutComment false raw) = t at h ⊢
  dsimp only
  cases h with
  | blank => rfl
  | @header inner name hname =>
    obtain rfl := Text.trims_iff.mp hname
    have hne : '[' :: inner ++ [']'] ≠ [] := List.cons_ne_nil _ _
    rw [if_neg hne, Text.between?_eq_some.mpr rfl]
  | @assignment left right name value inner hbare hfirst hname hvalue hn hv hinner =>
    obtain rfl := Text.trims_iff.mp hname
    obtain rfl := Text.trims_iff.mp hvalue
    obtain rfl := unquotes_iff.mp hinner
    have hne : left ++ '=' :: right ≠ [] := by simp
    rw [if_neg hne, Text.between?_eq_none.mpr hbare, Text.splitAt?_eq_some.mpr ⟨rfl, hfirst⟩]
    exact (if_neg (not_or.mpr ⟨hn, hv⟩)).symm
  | malformed hne hbare h =>
    rw [if_neg hne, Text.between?_eq_none.mpr hbare]
    dsimp only
    cases hsplit : Text.splitAt? '=' t with
    | none => rfl
    | some parts =>
      obtain ⟨ht, hfirst⟩ := Text.splitAt?_eq_some.mp hsplit
      have hempty : Text.trim parts.1 = [] ∨ Text.trim parts.2 = [] :=
        (h _ _ ht hfirst).imp (fun hl => (Text.trims_iff.mp hl).symm)
          fun hr => (Text.trims_iff.mp hr).symm
      exact (if_pos hempty).symm

private theorem says_ofText (raw : List Char) :
    Says (Text.trim (cutComment false raw)) (Line.ofText raw) := by
  unfold Line.ofText
  generalize Text.trim (cutComment false raw) = t
  dsimp only
  by_cases hne : t = []
  · subst hne
    exact .blank
  rw [if_neg hne]
  cases hname : Text.between? '[' ']' t with
  | some name =>
    rw [Text.between?_eq_some.mp hname]
    exact .header (Text.trims_iff.mpr rfl)
  | none =>
    have hbare := Text.between?_eq_none.mp hname
    dsimp only
    cases hsplit : Text.splitAt? '=' t with
    | none =>
      have hnever := Text.splitAt?_eq_none.mp hsplit
      exact .malformed hne hbare fun l r ht hfirst => absurd (hnever l r ht) hfirst
    | some parts =>
      obtain ⟨left, right⟩ := parts
      obtain ⟨rfl, hfirst⟩ := Text.splitAt?_eq_some.mp hsplit
      dsimp only
      split
      · rename_i hempty
        refine .malformed hne hbare fun l r ht hl => ?_
        have hsame : some (left, right) = some (l, r) :=
          hsplit.symm.trans (Text.splitAt?_eq_some.mpr ⟨ht, hl⟩)
        cases hsame
        exact hempty.imp (fun h => Text.trims_iff.mpr h.symm) fun h => Text.trims_iff.mpr h.symm
      · rename_i hfull
        obtain ⟨hn, hv⟩ := not_or.mp hfull
        exact .assignment hbare hfirst (Text.trims_iff.mpr rfl) (Text.trims_iff.mpr rfl) hn hv
          (unquotes_iff.mpr rfl)

theorem Line.reads_iff : l.Reads raw ↔ l = Line.ofText raw := by
  constructor
  · rintro ⟨kept, t, hkept, ht, hsays⟩
    obtain rfl := uncomments_iff.mp hkept
    obtain rfl := Text.trims_iff.mp ht
    exact hsays.eq
  · rintro rfl
    exact ⟨_, _, uncomments_iff.mpr rfl, Text.trims_iff.mpr rfl, says_ofText raw⟩

end

end Config

end PanelLink
