import Mathlib.Data.List.Induction
import PanelLink.Proofs.Settings

/-!
What does not matter in a settings file: blanks around a line, how a line ends, comments, and lines
that say nothing where they stand. Edits of a text are followed down to its lines, and what a line
says to the run over them.
-/
namespace PanelLink

namespace Text

variable {a b e l s t w : List Char}

/-! ## Where lines begin and end -/

/-- A line begins behind `a`. -/
def Starts (a : List Char) : Prop :=
  a = [] ∨ a.getLast? = some '\n'

/-- A line ends in front of these characters. -/
inductive Ends : List Char → Prop
  | last : Ends []
  | feed (rest : List Char) : Ends ('\n' :: rest)
  | returned (rest : List Char) : Ends ('\r' :: '\n' :: rest)

def Blanks (w : List Char) : Prop :=
  ∀ c ∈ w, isBlank c = true ∧ c ≠ '\n'

theorem blanks_returned : Blanks ['\r'] := by
  intro c hc
  obtain rfl := List.mem_singleton.mp hc
  decide

private theorem Starts.of_append (h : Starts (a ++ '\n' :: b)) : Starts b := by
  cases b with
  | nil => exact .inl rfl
  | cons c cs =>
    obtain h | h := h
    · exact absurd h (by simp)
    · exact .inr (by simpa using h)

/-- A text falls into the lines of its parts where a line begins. -/
theorem lines_append (ha : Starts a) (b : List Char) : lines (a ++ b) = lines a ++ lines b := by
  refine (splits_iff.mp ?_).symm
  -- The lines of the first part are followed one by one.
  have hsplits : Splits a (lines a) := splits_lines a
  generalize lines a = ls at hsplits
  induction hsplits with
  | empty => exact splits_lines b
  | @last l hne hl =>
    obtain rfl | hlast := ha
    · exact absurd rfl hne
    · exact absurd (List.mem_of_getLast? hlast) hl
  | @feed l rest ls hl hr _ ih =>
    have hrest : Splits (rest ++ b) (ls ++ lines b) := ih ha.of_append
    have htext : Splits (l ++ '\n' :: (rest ++ b)) (l :: (ls ++ lines b)) := .feed hl hr hrest
    rwa [List.append_assoc]
  | @returned l rest ls hl _ ih =>
    have hstarts : Starts ((l ++ ['\r']) ++ '\n' :: rest) := by simpa using ha
    have hrest : Splits (rest ++ b) (ls ++ lines b) := ih hstarts.of_append
    have htext : Splits (l ++ '\r' :: '\n' :: (rest ++ b)) (l :: (ls ++ lines b)) :=
      .returned hl hrest
    rwa [List.append_assoc]

/-- Every text has a first line. -/
theorem exists_line (b : List Char) : ∃ l e, b = l ++ e ∧ '\n' ∉ l ∧ Ends e := by
  induction b with
  | nil => exact ⟨[], [], rfl, List.not_mem_nil, .last⟩
  | cons c cs ih =>
    by_cases hc : c = '\n'
    · subst hc
      exact ⟨[], _, rfl, List.not_mem_nil, .feed cs⟩
    · obtain ⟨l, e, rfl, hl, he⟩ := ih
      exact ⟨c :: l, e, rfl, List.not_mem_cons_of_ne_of_not_mem (Ne.symm hc) hl, he⟩

/-- Every text ends with a line, which may be empty. -/
theorem exists_start (a : List Char) : ∃ b l, a = b ++ l ∧ Starts b ∧ '\n' ∉ l := by
  induction a using List.reverseRecOn with
  | nil => exact ⟨[], [], rfl, .inl rfl, List.not_mem_nil⟩
  | append_singleton a c ih =>
    by_cases hc : c = '\n'
    · subst hc
      exact ⟨a ++ ['\n'], [], by simp, .inr (by simp), List.not_mem_nil⟩
    · obtain ⟨b, l, rfl, hb, hl⟩ := ih
      refine ⟨b, l ++ [c], by simp, hb, ?_⟩
      simp [hl, Ne.symm hc]

/-! ## Blanks around a text -/

theorem Trims.indent (hw : ∀ c ∈ w, isBlank c = true) (h : Trims s t) : Trims (w ++ s) t := by
  obtain ⟨a, b, rfl, ha, hb, hhead, hlast⟩ := h
  refine ⟨w ++ a, b, by simp, ?_, hb, hhead, hlast⟩
  exact fun c hc => (List.mem_append.mp hc).elim (hw c) (ha c)

theorem Trims.pad (hw : ∀ c ∈ w, isBlank c = true) (h : Trims s t) : Trims (s ++ w) t := by
  obtain ⟨a, b, rfl, ha, hb, hhead, hlast⟩ := h
  refine ⟨a, b ++ w, by simp, ha, ?_, hhead, hlast⟩
  exact fun c hc => (List.mem_append.mp hc).elim (hb c) (hw c)

theorem not_mem_of_blank (hw : ∀ c ∈ w, isBlank c = true) {c : Char} (hc : isBlank c = false) :
    c ∉ w := by
  intro h
  rw [hw c h] at hc
  cases hc

end Text

namespace Config

variable {a b e l t t' w raw kept : List Char} {c d : Config} {s s' : Section}
  {i n : Nat} {line : Line}

/-! ## What a line says -/

def Commented (l : List Char) : Prop :=
  ∃ x y, l = x ++ '#' :: y ∧ Outside x

private theorem outside_append (hw : '"' ∉ w) (s : List Char) : Outside (w ++ s) ↔ Outside s := by
  unfold Outside
  rw [List.count_append, List.count_eq_zero.mpr hw, Nat.zero_add]

theorem Uncomments.indent (hw : ∀ c ∈ w, Text.isBlank c = true) (h : Uncomments raw kept) :
    Uncomments (w ++ raw) (w ++ kept) := by
  have hquote : '"' ∉ w := Text.not_mem_of_blank hw (by decide)
  have hhash : '#' ∉ w := Text.not_mem_of_blank hw (by decide)
  obtain ⟨hkept, hfirst⟩ := h
  refine ⟨hkept.imp (congrArg (w ++ ·)) ?_, fun x y hxy => ?_⟩
  · rintro ⟨hout, comment, rfl⟩
    exact ⟨(outside_append hquote kept).mpr hout, comment, (List.append_assoc _ _ _).symm⟩
  · -- The sign stands behind the blanks.
    obtain ⟨z, rfl, hz⟩ : ∃ z, x = w ++ z ∧ kept = z ++ '#' :: y := by
      obtain ⟨z, hx, hkept⟩ | ⟨z, hx, hy⟩ := List.append_eq_append_iff.mp hxy
      · exact ⟨z, hx, hkept⟩
      · cases z with
        | nil => exact ⟨[], by simpa using hx.symm, by simpa using hy.symm⟩
        | cons c cs =>
          obtain ⟨rfl, -⟩ := List.cons.inj hy
          exact absurd (by simp [hx]) hhash
    rw [outside_append hquote]
    exact hfirst z y hz

/-- Blanks at the end of a line belong to its comment, or they are kept. -/
theorem Uncomments.pad (hw : ∀ c ∈ w, Text.isBlank c = true) (h : Uncomments raw kept) :
    Uncomments (raw ++ w) kept ∨ Uncomments (raw ++ w) (kept ++ w) := by
  have hhash : '#' ∉ w := Text.not_mem_of_blank hw (by decide)
  obtain ⟨rfl | ⟨hout, comment, rfl⟩, hfirst⟩ := h
  · refine .inr ⟨.inl rfl, fun x y hxy => ?_⟩
    obtain ⟨z, -, hz⟩ | ⟨z, hx, hy⟩ := List.append_eq_append_iff.mp hxy
    · exact absurd (by simp [hz]) hhash
    · cases z with
      | nil =>
        obtain rfl : '#' :: y = w := hy
        exact absurd List.mem_cons_self hhash
      | cons c cs =>
        obtain ⟨rfl, -⟩ := List.cons.inj hy
        exact hfirst x cs hx
  · exact .inl ⟨.inr ⟨hout, comment ++ w, by simp⟩, hfirst⟩

/-- A comment behind a line is one, unless it stands between quotes. -/
theorem Uncomments.remark (hopen : Outside raw ∨ Commented raw) (h : Uncomments raw kept)
    (r : List Char) : Uncomments (raw ++ '#' :: r) kept := by
  obtain ⟨rfl | ⟨hout, comment, rfl⟩, hfirst⟩ := h
  · refine ⟨.inr ⟨?_, r, rfl⟩, hfirst⟩
    obtain hout | ⟨x, y, hxy, hout⟩ := hopen
    · exact hout
    · exact absurd hout (hfirst x y hxy)
  · exact ⟨.inr ⟨hout, comment ++ '#' :: r, by simp⟩, hfirst⟩

theorem Line.Reads.indent (hw : ∀ c ∈ w, Text.isBlank c = true) (h : line.Reads raw) :
    line.Reads (w ++ raw) := by
  obtain ⟨kept, t, hkept, ht, hsays⟩ := h
  exact ⟨w ++ kept, t, hkept.indent hw, ht.indent hw, hsays⟩

theorem Line.Reads.pad (hw : ∀ c ∈ w, Text.isBlank c = true) (h : line.Reads raw) :
    line.Reads (raw ++ w) := by
  obtain ⟨kept, t, hkept, ht, hsays⟩ := h
  obtain hpad | hpad := hkept.pad hw
  · exact ⟨kept, t, hpad, ht, hsays⟩
  · exact ⟨kept ++ w, t, hpad, ht.pad hw, hsays⟩

theorem Line.Reads.remark (hopen : Outside raw ∨ Commented raw) (h : line.Reads raw)
    (r : List Char) : line.Reads (raw ++ '#' :: r) := by
  obtain ⟨kept, t, hkept, ht, hsays⟩ := h
  exact ⟨kept, t, hkept.remark hopen r, ht, hsays⟩

theorem Line.reads_ofText (raw : List Char) : (Line.ofText raw).Reads raw :=
  Line.reads_iff.mpr rfl

theorem Line.reads_returned (raw : List Char) : (Line.ofText raw).Reads (raw ++ ['\r']) :=
  (Line.reads_ofText raw).pad fun c hc => (Text.blanks_returned c hc).1

/-- Blanks alone say nothing. -/
theorem Line.reads_blanks (hw : ∀ c ∈ w, Text.isBlank c = true) : Line.blank.Reads w := by
  have hempty : Line.blank.Reads [] := Line.reads_ofText []
  exact List.append_nil w ▸ hempty.indent hw

/-- A comment alone says nothing. -/
theorem Line.reads_comment (hw : ∀ c ∈ w, Text.isBlank c = true) (r : List Char) :
    Line.blank.Reads (w ++ '#' :: r) :=
  ((Line.reads_ofText []).remark (.inl outside_nil) r).indent hw

/-! ## Runs over lines -/

private theorem run_append_congr {ls ls' : List Line} (h : ∀ n s c, run n s c ls = run n s c ls')
    (before : List Line) (n : Nat) (s : Section) (c : Config) :
    run n s c (before ++ ls) = run n s c (before ++ ls') := by
  induction before generalizing n s c with
  | nil => exact h n s c
  | cons l before ih =>
    rw [List.cons_append, List.cons_append, run, run]
    cases step (.ofNat n) s c l with
    | error e => rfl
    | ok x => exact ih (n + 1) x.1 x.2

/-- The rest of a text counts by what its first line says, and it does not matter how this ends. -/
theorem run_first_line (he : Text.Ends e) : ∃ ls, ∀ l, '\n' ∉ l → ∀ n s c,
    run n s c ((Text.lines (l ++ e)).map Line.ofText) = run n s c (Line.ofText l :: ls) := by
  -- A carriage return before the line feed is one of the blanks at the end of the line.
  have hfeed (l rest : List Char) (hl : '\n' ∉ l) :
      (Text.lines (l ++ '\n' :: rest)).map Line.ofText =
        Line.ofText l :: (Text.lines rest).map Line.ofText := by
    by_cases hr : l.getLast? = some '\r'
    · obtain ⟨init, rfl⟩ := List.getLast?_eq_some_iff.mp hr
      have hinit : '\n' ∉ init := fun h => hl (List.mem_append_left _ h)
      have hsame : Line.ofText init = Line.ofText (init ++ ['\r']) :=
        Line.reads_iff.mp (Line.reads_returned init)
      rw [List.append_assoc, List.singleton_append, Text.lines_returned rest hinit, List.map_cons,
        hsame]
    · rw [Text.lines_feed rest hl hr, List.map_cons]
  cases he with
  | last =>
    refine ⟨[], fun l hl n s c => ?_⟩
    rw [List.append_nil]
    by_cases hne : l = []
    · subst hne
      rfl
    · rw [Text.lines_last hne hl, List.map_singleton]
  | feed rest => exact ⟨_, fun l hl n s c => by rw [hfeed l rest hl]⟩
  | returned rest =>
    refine ⟨(Text.lines rest).map Line.ofText, fun l hl n s c => ?_⟩
    have hreturn : '\n' ∉ l ++ ['\r'] := by simp [hl]
    have hsame : Line.ofText l = Line.ofText (l ++ ['\r']) :=
      Line.reads_iff.mp (Line.reads_returned l)
    rw [← List.singleton_append, ← List.append_assoc, hfeed _ rest hreturn, hsame]

/-- Of each line of a settings file only what it says counts. -/
theorem parse_line (ha : Text.Starts a) (he : Text.Ends e) : ∃ ls ls', ∀ l, '\n' ∉ l →
    parse (a ++ l ++ e) = run 1 .root {} (ls ++ Line.ofText l :: ls') := by
  obtain ⟨ls', hls'⟩ := run_first_line he
  refine ⟨(Text.lines a).map Line.ofText, ls', fun l hl => ?_⟩
  rw [parse, List.append_assoc, Text.lines_append ha, List.map_append]
  exact run_append_congr (hls' l hl) _ 1 .root {}

theorem parse_congr (ha : Text.Starts a) (he : Text.Ends e) {l l' : List Char} (hl : '\n' ∉ l)
    (hl' : '\n' ∉ l') (hsame : (Line.ofText l).Reads l') :
    parse (a ++ l' ++ e) = parse (a ++ l ++ e) := by
  obtain ⟨ls, ls', hparse⟩ := parse_line ha he
  rw [hparse l hl, hparse l' hl', Line.reads_iff.mp hsame]

/-! ## Edits within a line -/

/-- An edit that leaves each line to say what it says. -/
inductive Relayout : List Char → List Char → Prop
  | indent {a b w : List Char} (ha : Text.Starts a) (hw : Text.Blanks w) :
      Relayout (a ++ b) (a ++ w ++ b)
  | pad {a b w : List Char} (hb : Text.Ends b) (hw : Text.Blanks w) :
      Relayout (a ++ b) (a ++ w ++ b)
  | returned (a b : List Char) : Relayout (a ++ '\n' :: b) (a ++ '\r' :: '\n' :: b)
  | remark {a l e r : List Char} (ha : Text.Starts a) (hl : '\n' ∉ l) (he : Text.Ends e)
      (hopen : Outside l ∨ Commented l) (hr : '\n' ∉ r) :
      Relayout (a ++ l ++ e) (a ++ (l ++ '#' :: r) ++ e)

private theorem parse_pad (hb : Text.Ends b) (hw : Text.Blanks w) :
    parse (a ++ w ++ b) = parse (a ++ b) := by
  obtain ⟨a, l, rfl, ha, hl⟩ := Text.exists_start a
  have hfeed : '\n' ∉ l ++ w := by
    intro h
    exact (List.mem_append.mp h).elim hl fun h => (hw _ h).2 rfl
  rw [List.append_assoc a l w]
  exact parse_congr ha hb hl hfeed ((Line.reads_ofText l).pad fun c hc => (hw c hc).1)

theorem Relayout.parse_eq (h : Relayout t t') : parse t' = parse t := by
  cases h with
  | @indent a b w ha hw =>
    obtain ⟨l, e, rfl, hl, he⟩ := Text.exists_line b
    have hfeed : '\n' ∉ w ++ l := by
      intro h
      exact (List.mem_append.mp h).elim (fun h => (hw _ h).2 rfl) hl
    have hparse : parse (a ++ (w ++ l) ++ e) = parse (a ++ l ++ e) :=
      parse_congr ha he hl hfeed ((Line.reads_ofText l).indent fun c hc => (hw c hc).1)
    simpa using hparse
  | pad hb hw => exact parse_pad hb hw
  | returned a b =>
    have hparse : parse (a ++ ['\r'] ++ '\n' :: b) = parse (a ++ '\n' :: b) :=
      parse_pad (.feed b) Text.blanks_returned
    simpa using hparse
  | @remark a l e r ha hl he hopen hr =>
    have hfeed : '\n' ∉ l ++ '#' :: r := by simp [hl, hr]
    exact parse_congr ha he hl hfeed ((Line.reads_ofText l).remark hopen r)

/-! ## More lines -/

def InForce (before : List (List Char)) (s : Section) : Prop :=
  ∃ ls, List.Forall₂ Line.Reads ls before ∧ Under ls before.length s

/-- A line that says nothing behind `before`: it is blank, a comment, or the assignment of a key
that the section in force does not know. -/
inductive PassedOver (before : List (List Char)) : List Char → Prop
  | blank {w : List Char} (hw : ∀ c ∈ w, Text.isBlank c = true) : PassedOver before w
  | comment {w : List Char} (hw : ∀ c ∈ w, Text.isBlank c = true) (r : List Char) :
      PassedOver before (w ++ '#' :: r)
  | unknown {l name value : List Char} (hl : (Line.assignment name value).Reads l)
      (hname : ∀ k : Setting, InForce before k.home → k.name ≠ name) : PassedOver before l

def ParseError.inLine (n : UInt32) : ParseError → ParseError
  | invalidSection _ => .invalidSection n
  | invalidLine _ => .invalidLine n
  | invalidValue _ k => .invalidValue n k

/-- What a file of `i` lines with `j` behind them comes to, and what it comes to with a line more
between them: the same, but that a failure further down is one line later. -/
inductive Pushed {α : Type} (i j : Nat) : Except ParseError α → Except ParseError α → Prop
  | ok (c : α) : Pushed i j (.ok c) (.ok c)
  | before {n : Nat} (e : ParseError) (h : 1 ≤ n ∧ n ≤ i) :
      Pushed i j (.error (e.inLine (.ofNat n))) (.error (e.inLine (.ofNat n)))
  | behind {n : Nat} (e : ParseError) (h : i < n ∧ n ≤ i + j) :
      Pushed i j (.error (e.inLine (.ofNat n))) (.error (e.inLine (.ofNat (n + 1))))

def progress (n : Nat) (s : Section) (c : Config) :
    List Line → Except ParseError (Section × Config)
  | [] => .ok (s, c)
  | l :: ls =>
    match step (.ofNat n) s c l with
    | .error e => .error e
    | .ok (s, c) => progress (n + 1) s c ls

theorem run_append (before ls : List Line) (n : Nat) (s : Section) (c : Config) :
    run n s c (before ++ ls) =
      match progress n s c before with
      | .error e => .error e
      | .ok (s, c) => run (n + before.length) s c ls := by
  induction before generalizing n s c with
  | nil => rfl
  | cons l before ih =>
    rw [List.cons_append, run, progress]
    cases step (.ofNat n) s c l with
    | error e => rfl
    | ok x =>
      rw [List.length_cons, Nat.add_comm before.length, ← Nat.add_assoc]
      exact ih (n + 1) x.1 x.2

/-- A line has the same effect wherever it stands, and its failures name the place. -/
theorem step_inLine (m n : UInt32) (s : Section) (c : Config) (l : Line) :
    step m s c l = (step n s c l).mapError (ParseError.inLine m) := by
  cases l with
  | blank => rfl
  | malformed => rfl
  | header name =>
    unfold step
    dsimp only
    cases Section.ofName? name <;> rfl
  | assignment name value =>
    unfold step
    dsimp only
    cases Setting.find? s name with
    | none => rfl
    | some k =>
      dsimp only
      cases c.set? k value <;> rfl

private theorem step_error_inLine {n : UInt32} {l : Line} {e : ParseError}
    (h : step n s c l = .error e)
    (m : UInt32) : step m s c l = .error (e.inLine m) := by
  rw [step_inLine m n, h]
  rfl

private theorem inLine_of_step_error {n : UInt32} {l : Line} {e : ParseError}
    (h : step n s c l = .error e) : e.inLine n = e :=
  Except.error.inj ((step_error_inLine h n).symm.trans h)

/-- Lines that all stand one further. -/
theorem run_pushed {ls : List Line} (h : i < n) (hn : n + ls.length ≤ i + j + 1) :
    Pushed i j (run n s c ls) (run (n + 1) s c ls) := by
  induction ls generalizing n s c with
  | nil => exact .ok c
  | cons l ls ih =>
    rw [List.length_cons] at hn
    rw [run, run]
    cases hl : step (.ofNat n) s c l with
    | error e =>
      have hlast : n ≤ i + j := by omega
      have hpushed : Pushed i j (.error (e.inLine (.ofNat n)) : Except ParseError Config)
          (.error (e.inLine (.ofNat (n + 1)))) := .behind e ⟨h, hlast⟩
      rw [step_error_inLine hl]
      rwa [inLine_of_step_error hl] at hpushed
    | ok x =>
      rw [step_inLine _ (.ofNat n), hl]
      exact ih (Nat.lt_succ_of_lt h) (by omega)

private theorem progress_error {before : List Line} {e : ParseError} (hn : 1 ≤ n)
    (h : n + before.length ≤ i + 1) (he : progress n s c before = .error e) :
    ∃ m, (1 ≤ m ∧ m ≤ i) ∧ e.inLine (.ofNat m) = e := by
  induction before generalizing n s c with
  | nil => cases he
  | cons l before ih =>
    rw [List.length_cons] at h
    rw [progress] at he
    cases hl : step (.ofNat n) s c l with
    | error x =>
      rw [hl] at he
      obtain rfl := Except.error.inj he
      exact ⟨n, ⟨hn, by omega⟩, inLine_of_step_error hl⟩
    | ok x =>
      rw [hl] at he
      exact ih (Nat.le_succ_of_le hn) (by omega) he

/-- A line that changes nothing where it stands only pushes the failures behind it. -/
theorem run_insert {before : List Line}
    (hline : ∀ s c, progress 1 .root {} before = .ok (s, c) → ∀ n, step n s c line = .ok (s, c))
    (ls : List Line) :
    Pushed before.length ls.length (run 1 .root {} (before ++ ls))
      (run 1 .root {} (before ++ line :: ls)) := by
  rw [run_append, run_append]
  cases hbefore : progress 1 .root {} before with
  | error e =>
    have hlength : 1 + before.length ≤ before.length + 1 := by omega
    obtain ⟨n, hn, hsame⟩ := progress_error (Nat.le_refl 1) hlength hbefore
    exact hsame ▸ .before e hn
  | ok x =>
    obtain ⟨s, c⟩ := x
    dsimp only
    rw [run, hline s c hbefore]
    exact run_pushed (by omega) (by omega)

/-- Lines without a fault lead to the section that is in force behind them. -/
theorem Reached.progress {ls before : List Line} (h : Reached ls i s c)
    (hbefore : before <+: ls.drop i) (hd : progress (i + 1) s c before = .ok (s', d)) :
    Reached ls (i + before.length) s' d := by
  induction before generalizing i s c with
  | nil =>
    cases hd
    exact h
  | cons l before ih =>
    obtain ⟨rest, hrest⟩ := hbefore
    have hl : ls[i]? = some l := by
      rw [← List.head?_drop, ← hrest]
      rfl
    have hnext : before <+: ls.drop (i + 1) := by
      rw [← List.tail_drop, ← hrest]
      exact ⟨rest, rfl⟩
    have hstep := h.step hl
    rw [Config.progress] at hd
    rcases hresult : Config.step (.ofNat (i + 1)) s c l with x | ⟨s₁, c₁⟩
    · rw [hresult] at hd
      cases hd
    · rw [hresult] at hd hstep
      have hreached := ih hstep hnext hd
      rw [List.length_cons, Nat.add_comm before.length, ← Nat.add_assoc]
      exact hreached

theorem inForce_of_progress {before : List (List Char)}
    (h : progress 1 .root {} (before.map Line.ofText) = .ok (s, c)) : InForce before s := by
  have hreached := (reached_zero (before.map Line.ofText)).progress (List.prefix_refl _) h
  exact ⟨before.map Line.ofText, forall₂_reads_iff.mpr rfl, by simpa using hreached.under⟩

/-- Behind some lines one section is in force. -/
theorem InForce.unique {before : List (List Char)} (h : InForce before s) (h' : InForce before s') :
    s = s' := by
  obtain ⟨ls, hls, hunder⟩ := h
  obtain ⟨ls', hls', hunder'⟩ := h'
  obtain rfl : ls = ls' := (forall₂_reads_iff.mp hls).trans (forall₂_reads_iff.mp hls').symm
  exact hunder.unique hunder'

/-- A line that is passed over changes nothing where it stands. -/
theorem PassedOver.step {before : List (List Char)} (h : PassedOver before l)
    (hbefore : progress 1 .root {} (before.map Line.ofText) = .ok (s, c)) (n : UInt32) :
    step n s c (Line.ofText l) = .ok (s, c) := by
  cases h with
  | blank hw => rw [← Line.reads_iff.mp (Line.reads_blanks hw), Config.step]
  | comment hw r => rw [← Line.reads_iff.mp (Line.reads_comment hw r), Config.step]
  | @unknown _ name value hl hname =>
    have hnone : Setting.find? s name = none := by
      cases hk : Setting.find? s name with
      | none => rfl
      | some k =>
        obtain ⟨rfl, rfl⟩ := find?_eq_some.mp hk
        exact absurd rfl (hname k (inForce_of_progress hbefore))
    rw [← Line.reads_iff.mp hl, Config.step, hnone]

private theorem parse_of_splits {ls : List (List Char)} (h : Text.Splits t ls) :
    parse t = run 1 .root {} (ls.map Line.ofText) := by
  rw [parse, Text.splits_iff.mp h]

/-- Layout and comments never change the settings. Blanks at either end of a line, a carriage return
at the end of one and a comment behind it change nothing; and a line more that is blank, a comment
or an assignment to a name that is not known where it stands changes no more than the numbers of the
lines behind it. -/
theorem layout_immaterial (t : List Char) :
    (∀ t', Relayout t t' → parse t' = parse t) ∧
    ∀ t' before l after, Text.Splits t (before ++ after) → Text.Splits t' (before ++ l :: after) →
      PassedOver before l → Pushed before.length after.length (parse t) (parse t') := by
  refine ⟨fun t' h => h.parse_eq, fun t' before l after ht ht' hl => ?_⟩
  rw [parse_of_splits ht, parse_of_splits ht', List.map_append, List.map_append, List.map_cons]
  have hinsert := run_insert (fun s c h => hl.step h) (after.map Line.ofText)
  rwa [List.length_map, List.length_map] at hinsert

/-- In a file with a rate that is none, a line more names a setting of the other section, and what
looks like an open quote stands in a comment. -/
theorem failure_pushed :
    let t := "[display]\nfps = 0 # \"".toList
    let before := ["[display]".toList]
    let l := "listing = 0".toList
    PassedOver before l ∧ parse t = .error (.invalidValue 2 .fps) ∧
    parse "[display]\nlisting = 0\r\nfps = 0 # \"".toList = .error (.invalidValue 3 .fps) ∧
    Pushed 1 1 (parse t) (parse "[display]\nlisting = 0\r\nfps = 0 # \"".toList) ∧
    Relayout t "[display]\nfps = 0 # \"# none".toList ∧
    parse "[display]\nfps = 0 # \"# none".toList = parse t := by
  intro t before l
  have hforce : InForce before .display := inForce_of_progress (c := {}) (by decide +kernel)
  have hassigns : (Line.assignment "listing".toList "0".toList).Reads l :=
    Line.reads_iff.mpr (by decide +kernel)
  have hpassed : PassedOver before l := by
    refine .unknown hassigns fun k hk hname => ?_
    obtain rfl : k = .listing := Setting.name_inj hname
    cases hforce.unique hk
  have hedit : Relayout t "[display]\nfps = 0 # \"# none".toList :=
    .remark (a := "[display]\n".toList) (l := "fps = 0 # \"".toList) (r := " none".toList)
      (.inr (by decide +kernel)) (by decide +kernel) .last
      (.inr ⟨"fps = 0 ".toList, " \"".toList, by decide +kernel, rfl⟩)
      (by decide +kernel)
  obtain ⟨hsame, hinsert⟩ := layout_immaterial t
  refine ⟨hpassed, by decide +kernel, by decide +kernel, ?_, hedit, hsame _ hedit⟩
  exact hinsert _ before l ["fps = 0 # \"".toList] (Text.splits_iff.mpr (by decide +kernel))
    (Text.splits_iff.mpr (by decide +kernel)) hpassed

end Config

end PanelLink
