import Mathlib.Data.Nat.Digits.Defs
import PanelLink.Proofs.Lines

/-!
What a settings file means, by its lines and without a run over them: which section an assignment
stands under, which values it may have, and which assignment counts.
-/
namespace PanelLink.Config

/-! ## Values -/

inductive Value where
  | listing (mode : ListingMode)
  | paths (mode : PathMode)
  | flag (b : Bool)
  | rate (n : Nat)

def Setting.get : Setting → Config → Value
  | listing, c => .listing c.listing
  | paths, c => .paths c.paths
  | enforceSequence, c => .flag c.enforceSequence
  | fps, c => .rate c.fps

/-- The text is a number in decimal, with a plus sign in front or without. -/
def Numeral (text : List Char) (n : Nat) : Prop :=
  ∃ ds, ds ≠ [] ∧ (text = ds ∨ text = '+' :: ds) ∧ (∀ c ∈ ds, '0' ≤ c ∧ c ≤ '9') ∧
    n = Nat.ofDigits 10 (ds.reverse.map fun c => c.toNat - '0'.toNat)

/-- The values that a setting takes, and what they set it to. -/
inductive Writes : Setting → List Char → Value → Prop
  | split : Writes .listing "split".toList (.listing .split)
  | truncate : Writes .listing "truncate".toList (.listing .truncate)
  | literal : Writes .paths "literal".toList (.paths .literal)
  | relative : Writes .paths "relative".toList (.paths .relative)
  | on : Writes .enforceSequence "true".toList (.flag true)
  | off : Writes .enforceSequence "false".toList (.flag false)
  | fps {text : List Char} {n : Nat} (h : Numeral text n) (hmin : minFps ≤ n) (hmax : n ≤ maxFps) :
      Writes .fps text (.rate n)

private theorem digits?_eq_some {acc n : Nat} {cs : List Char} :
    digits? acc cs = some n ↔ (∀ c ∈ cs, '0' ≤ c ∧ c ≤ '9') ∧
      n = 10 ^ cs.length * acc + Nat.ofDigits 10 (cs.reverse.map fun c => c.toNat - '0'.toNat) := by
  induction cs generalizing acc with
  | nil => simp [digits?, eq_comm]
  | cons c cs ih =>
    rw [digits?]
    by_cases hc : '0' ≤ c ∧ c ≤ '9'
    · have hvalue : 10 ^ cs.length * (10 * acc + (c.toNat - '0'.toNat)) +
          Nat.ofDigits 10 (cs.reverse.map fun c => c.toNat - '0'.toNat) =
          10 ^ (c :: cs).length * acc +
            Nat.ofDigits 10 ((c :: cs).reverse.map fun c => c.toNat - '0'.toNat) := by
        rw [List.reverse_cons, List.map_append, Nat.ofDigits_append, List.length_map,
          List.length_reverse, List.map_singleton, Nat.ofDigits_singleton, List.length_cons,
            pow_succ]
        ring
      rw [if_pos hc, ih, hvalue, List.forall_mem_cons]
      exact ⟨fun h => ⟨⟨hc, h.1⟩, h.2⟩, fun h => ⟨h.1.2, h.2⟩⟩
    · rw [if_neg hc]
      exact ⟨nofun, fun h => absurd (h.1 c List.mem_cons_self) hc⟩

theorem number?_eq_some {text : List Char} {n : Nat} : number? text = some n ↔ Numeral text n := by
  -- A plus sign is no digit, so it is clear where the digits begin.
  have hplus (ds : List Char) (hds : ∀ c ∈ ds, '0' ≤ c ∧ c ≤ '9') : ds.head? ≠ some '+' :=
    fun h => absurd (hds '+' (List.mem_of_head? h)) (by decide)
  have hbody (ds : List Char) (hne : ds ≠ []) : (if ds = [] then none else digits? 0 ds) = some n ↔
      (∀ c ∈ ds, '0' ≤ c ∧ c ≤ '9') ∧
        n = Nat.ofDigits 10 (ds.reverse.map fun c => c.toNat - '0'.toNat) := by
    rw [if_neg hne, digits?_eq_some, Nat.mul_zero, Nat.zero_add]
  unfold number?
  dsimp only
  constructor
  · split
    · rename_i hhead
      obtain ⟨ds, rfl⟩ := List.head?_eq_some_iff.mp hhead
      intro h
      have hne : ds ≠ [] := by
        rintro rfl
        cases h
      obtain ⟨hdigits, hn⟩ := (hbody ds hne).mp h
      exact ⟨ds, hne, .inr rfl, hdigits, hn⟩
    · intro h
      have hne : text ≠ [] := by
        rintro rfl
        cases h
      obtain ⟨hdigits, hn⟩ := (hbody _ hne).mp h
      exact ⟨text, hne, .inl rfl, hdigits, hn⟩
  · rintro ⟨ds, hne, rfl | rfl, hdigits, hn⟩
    · rw [if_neg (hplus text hdigits)]
      exact (hbody text hne).mpr ⟨hdigits, hn⟩
    · have hhead : ('+' :: ds).head? = some '+' := rfl
      rw [if_pos hhead]
      exact (hbody ds hne).mpr ⟨hdigits, hn⟩

variable {c d : Config} {k : Setting} {v : List Char} {x : Value}

/-- The setting is set to what the value writes, if that is anything, and the others stay. -/
def Effect (c : Config) (k : Setting) (v : List Char) (result : Option Config) : Prop :=
  (∃ d, result = some d ∧ Writes k v (k.get d) ∧ ∀ j ≠ k, j.get d = j.get c) ∨
  (result = none ∧ ∀ x, ¬Writes k v x)

def Value.setting : Value → Setting
  | listing _ => .listing
  | paths _ => .paths
  | flag _ => .enforceSequence
  | rate _ => .fps

def put (c : Config) : Value → Config
  | .listing mode => { c with listing := mode }
  | .paths mode => { c with paths := mode }
  | .flag b => { c with enforceSequence := b }
  | .rate n => { c with fps := n }

theorem get_put (c : Config) (x : Value) : x.setting.get (c.put x) = x := by
  cases x <;> rfl

private theorem get_put_of_ne (c : Config) {j : Setting} (h : j ≠ x.setting) :
    j.get (c.put x) = j.get c := by
  cases x <;> cases j <;> first | rfl | exact absurd rfl h

theorem Writes.setting (h : Writes k v x) : x.setting = k := by
  cases h <;> rfl

private theorem Writes.effect (h : Writes k v x) (c : Config) : Effect c k v (some (c.put x)) := by
  obtain rfl := h.setting
  refine .inl ⟨c.put x, rfl, ?_, fun j hj => c.get_put_of_ne hj⟩
  rwa [get_put]

/-- A setting with two values. -/
theorem effect_choice {x₁ x₂ : Value} {v₁ v₂ : List Char} (h₁ : Writes k v₁ x₁)
    (h₂ : Writes k v₂ x₂)
    (honly : ∀ v x, Writes k v x → v = v₁ ∨ v = v₂) (c : Config) (v : List Char) :
    Effect c k v
      (if v = v₁ then some (c.put x₁) else if v = v₂ then some (c.put x₂) else none) := by
  split_ifs with hv₁ hv₂
  · exact hv₁ ▸ h₁.effect c
  · exact hv₂ ▸ h₂.effect c
  · exact .inr ⟨rfl, fun x hx => (honly v x hx).elim hv₁ hv₂⟩

theorem set?_effect (c : Config) (k : Setting) (v : List Char) : Effect c k v (c.set? k v) := by
  cases k with
  | listing =>
    refine effect_choice .split .truncate ?_ c v
    rintro v x (_ | _)
    · exact .inl rfl
    · exact .inr rfl
  | paths =>
    refine effect_choice .literal .relative ?_ c v
    rintro v x (_ | _)
    · exact .inl rfl
    · exact .inr rfl
  | enforceSequence =>
    refine effect_choice .on .off ?_ c v
    rintro v x (_ | _)
    · exact .inl rfl
    · exact .inr rfl
  | fps =>
    unfold set?
    dsimp only
    cases hn : number? v with
    | none =>
      refine .inr ⟨rfl, fun x hx => ?_⟩
      cases hx with
      | fps h _ _ => cases hn.symm.trans (number?_eq_some.mpr h)
    | some n =>
      dsimp only
      split_ifs with hrange
      · exact (Writes.fps (number?_eq_some.mp hn) hrange.1 hrange.2).effect c
      · refine .inr ⟨rfl, fun x hx => ?_⟩
        cases hx with
        | fps h hmin hmax =>
          obtain rfl := Option.some.inj (hn.symm.trans (number?_eq_some.mpr h))
          exact hrange ⟨hmin, hmax⟩

/-! ## Sections -/

/-- The sections that a header can begin. -/
inductive Names : List Char → Section → Prop
  | protocol : Names "protocol".toList .protocol
  | display : Names "display".toList .display

theorem ofName?_eq_some {name : List Char} {s : Section} :
    Section.ofName? name = some s ↔ Names name s := by
  unfold Section.ofName?
  constructor
  · split_ifs with hprotocol hdisplay
    · rintro ⟨⟩
      exact hprotocol ▸ .protocol
    · rintro ⟨⟩
      exact hdisplay ▸ .display
    · exact nofun
  · rintro (_ | _)
    · rfl
    · rfl

theorem Setting.name_inj {j k : Setting} (h : j.name = k.name) : j = k := by
  revert h
  cases j <;> cases k <;> decide

theorem find?_eq_some {s : Section} {name : List Char} :
    Setting.find? s name = some k ↔ k.home = s ∧ k.name = name := by
  unfold Setting.find?
  constructor
  · intro h
    simpa using List.find?_some h
  · rintro ⟨rfl, rfl⟩
    cases k <;> decide

/-! ## Assignments -/

variable {ls : List Line} {i j : Nat} {s s' : Section} {e e' : ParseError}

def Plain (ls : List Line) (i : Nat) : Prop :=
  ∀ name, ls[i]? ≠ some (.header name)

/-- The line is under the section of the last header before it, or under none. -/
def Under (ls : List Line) (i : Nat) (s : Section) : Prop :=
  (s = .root ∧ ∀ j < i, Plain ls j) ∨
  ∃ j < i, ∃ name, ls[j]? = some (.header name) ∧ Names name s ∧ ∀ m, j < m → m < i → Plain ls m

/-- The line assigns a value to a setting, in the section that it belongs to. -/
def Assigns (ls : List Line) (i : Nat) (k : Setting) (v : List Char) : Prop :=
  ls[i]? = some (.assignment k.name v) ∧ Under ls i k.home

/-- What is wrong with a line. -/
inductive Fault (ls : List Line) (i : Nat) : ParseError → Prop
  | header {name : List Char} (hline : ls[i]? = some (.header name)) (hname : ∀ s, ¬Names name s) :
      Fault ls i (.invalidSection (.ofNat (i + 1)))
  | line (hline : ls[i]? = some .malformed) : Fault ls i (.invalidLine (.ofNat (i + 1)))
  | value {k : Setting} {v : List Char} (hline : Assigns ls i k v) (hvalue : ∀ x, ¬Writes k v x) :
      Fault ls i (.invalidValue (.ofNat (i + 1)) k)

/-- Of the first `i` lines the last assignment to the setting sets it to `x`; without one `x` is the
default. -/
def Settles (ls : List Line) (i : Nat) (k : Setting) (x : Value) : Prop :=
  (∃ j < i, ∃ v, Assigns ls j k v ∧ Writes k v x ∧
    ∀ m, j < m → m < i → ∀ u, ¬Assigns ls m k u) ∨
  (x = k.get {} ∧ ∀ j < i, ∀ v, ¬Assigns ls j k v)

/-- What a settings file with these lines means. The first line with a fault is the failure; without
one each setting is what the last assignment to it says. -/
structure Meaning (ls : List Line) (result : Except ParseError Config) : Prop where
  fails : (∃ e, result = .error e) ↔ ∃ i e, Fault ls i e
  first {e : ParseError} : result = .error e ↔
    ∃ i, Fault ls i e ∧ ∀ j < i, ∀ e', ¬Fault ls j e'
  settles {c : Config} : result = .ok c → ∀ k, Settles ls ls.length k (k.get c)
  rate {c : Config} : result = .ok c → minFps ≤ c.fps ∧ c.fps ≤ maxFps

/-! ## A run over the lines -/

theorem under_zero (ls : List Line) : Under ls 0 .root :=
  .inl ⟨rfl, nofun⟩

/-- A line that is no header leaves the section. -/
theorem Under.next (h : Under ls i s) (hline : Plain ls i) : Under ls (i + 1) s := by
  obtain ⟨rfl, hplain⟩ | ⟨j, hj, name, hheader, hname, hplain⟩ := h
  · refine .inl ⟨rfl, fun j hj => ?_⟩
    obtain hj | rfl := Nat.lt_succ_iff_lt_or_eq.mp hj
    · exact hplain j hj
    · exact hline
  · refine .inr ⟨j, Nat.lt_succ_of_lt hj, name, hheader, hname, fun m hm hi => ?_⟩
    obtain hi | rfl := Nat.lt_succ_iff_lt_or_eq.mp hi
    · exact hplain m hm hi
    · exact hline

/-- A line stands under one section. -/
theorem Under.unique (h : Under ls i s) (h' : Under ls i s') : s = s' := by
  obtain ⟨rfl, hplain⟩ | ⟨j, hj, name, hheader, hname, hplain⟩ := h <;>
    obtain ⟨rfl, hplain'⟩ | ⟨j', hj', name', hheader', hname', hplain'⟩ := h'
  · rfl
  · exact absurd hheader' (hplain j' hj' name')
  · exact absurd hheader (hplain' j hj name)
  · obtain hlt | rfl | hlt := Nat.lt_trichotomy j j'
    · exact absurd hheader' (hplain j' hlt hj' name')
    · cases hheader.symm.trans hheader'
      exact Option.some.inj
        ((ofName?_eq_some.mpr hname).symm.trans (ofName?_eq_some.mpr hname'))
    · exact absurd hheader (hplain' j hlt hj name)

/-- With a line at most one setting is assigned a value. -/
theorem Assigns.unique {j : Setting} {u : List Char} (h : Assigns ls i k v)
    (h' : Assigns ls i j u) :
    k = j ∧ v = u := by
  obtain ⟨hname, rfl⟩ := Line.assignment.inj (Option.some.inj (h.1.symm.trans h'.1))
  exact ⟨Setting.name_inj hname, rfl⟩

/-- At most one thing is wrong with a line. -/
theorem Fault.unique (h : Fault ls i e) (h' : Fault ls i e') : e = e' := by
  cases h with
  | header hline hname =>
    cases h' with
    | header => rfl
    | line hline' => cases hline.symm.trans hline'
    | value hline' => cases hline.symm.trans hline'.1
  | line hline =>
    cases h' with
    | header hline' => cases hline.symm.trans hline'
    | line => rfl
    | value hline' => cases hline.symm.trans hline'.1
  | value hline hvalue =>
    cases h' with
    | header hline' => cases hline.1.symm.trans hline'
    | line hline' => cases hline.1.symm.trans hline'
    | value hline' => rw [(hline.unique hline').1]

theorem settles_zero (ls : List Line) (k : Setting) : Settles ls 0 k (k.get {}) :=
  .inr ⟨rfl, nofun⟩

/-- A line that assigns nothing to a setting leaves it. -/
theorem Settles.next (h : Settles ls i k x) (hline : ∀ v, ¬Assigns ls i k v) :
    Settles ls (i + 1) k x := by
  obtain ⟨j, hj, v, hassigns, hwrites, hlast⟩ | ⟨hdefault, hnone⟩ := h
  · refine .inl ⟨j, Nat.lt_succ_of_lt hj, v, hassigns, hwrites, fun m hm hi => ?_⟩
    obtain hi | rfl := Nat.lt_succ_iff_lt_or_eq.mp hi
    · exact hlast m hm hi
    · exact hline
  · refine .inr ⟨hdefault, fun j hj => ?_⟩
    obtain hj | rfl := Nat.lt_succ_iff_lt_or_eq.mp hj
    · exact hnone j hj
    · exact hline

/-- The last line counts. -/
theorem Assigns.settles (h : Assigns ls i k v) (hwrites : Writes k v x) :
    Settles ls (i + 1) k x :=
  .inl ⟨i, Nat.lt_succ_self i, v, h, hwrites, fun m hm hi => by omega⟩

structure Reached (ls : List Line) (i : Nat) (s : Section) (c : Config) : Prop where
  under : Under ls i s
  settles : ∀ k, Settles ls i k (k.get c)
  faultless : ∀ j < i, ∀ e, ¬Fault ls j e

theorem reached_zero (ls : List Line) : Reached ls 0 .root {} :=
  ⟨under_zero ls, settles_zero ls, nofun⟩

/-- A line that is right takes the settings one line further. -/
theorem Reached.next (h : Reached ls i s c) (hunder : Under ls (i + 1) s')
    (hsettles : ∀ k, Settles ls (i + 1) k (k.get d)) (hright : ∀ e, ¬Fault ls i e) :
    Reached ls (i + 1) s' d := by
  refine ⟨hunder, hsettles, fun j hj => ?_⟩
  obtain hj | rfl := Nat.lt_succ_iff_lt_or_eq.mp hj
  · exact h.faultless j hj
  · exact hright

/-- A step takes a line as it is meant. -/
theorem Reached.step (h : Reached ls i s c) {l : Line} (hl : ls[i]? = some l) :
    match step (.ofNat (i + 1)) s c l with
    | .ok (s', d) => Reached ls (i + 1) s' d
    | .error e => Fault ls i e := by
  -- What a line can be wrong about.
  have hright (hheader : ∀ name, l = .header name → ∃ s, Names name s) (hline : l ≠ .malformed)
      (hvalue : ∀ k v, Assigns ls i k v → ∃ x, Writes k v x) : ∀ e, ¬Fault ls i e := by
    rintro e (⟨hname, hnone⟩ | hmalformed | ⟨hassigns, hnone⟩)
    · obtain ⟨s, hs⟩ := hheader _ (Option.some.inj (hl.symm.trans hname))
      exact hnone s hs
    · exact hline (Option.some.inj (hl.symm.trans hmalformed))
    · obtain ⟨x, hx⟩ := hvalue _ _ hassigns
      exact hnone x hx
  cases l with
  | blank =>
    have hnone (k : Setting) (v : List Char) : ¬Assigns ls i k v :=
      fun hk => nomatch hl.symm.trans hk.1
    refine h.next (h.under.next fun name hname => nomatch hl.symm.trans hname)
      (fun k => (h.settles k).next (hnone k)) (hright nofun nofun fun k v hk => ?_)
    exact absurd hk (hnone k v)
  | header name =>
    have hnone (k : Setting) (v : List Char) : ¬Assigns ls i k v :=
      fun hk => nomatch hl.symm.trans hk.1
    unfold Config.step
    dsimp only
    cases hs : Section.ofName? name with
    | none =>
      refine .header hl fun s hname => ?_
      cases hs.symm.trans (ofName?_eq_some.mpr hname)
    | some s' =>
      have hname : Names name s' := ofName?_eq_some.mp hs
      have hunder : Under ls (i + 1) s' :=
        .inr ⟨i, Nat.lt_succ_self i, name, hl, hname, fun m hm hi => by omega⟩
      refine h.next hunder (fun k => (h.settles k).next (hnone k))
        (hright ?_ nofun fun k v hk => ?_)
      · rintro name ⟨⟩
        exact ⟨s', hname⟩
      · exact absurd hk (hnone k v)
  | malformed => exact .line hl
  | assignment name value =>
    have hunder : Under ls (i + 1) s := h.under.next fun name hname => nomatch hl.symm.trans hname
    unfold Config.step
    dsimp only
    cases hk : Setting.find? s name with
    | none =>
      have hnone (k : Setting) (v : List Char) : ¬Assigns ls i k v := by
        rintro ⟨hline, hhome⟩
        obtain ⟨rfl, -⟩ := Line.assignment.inj (Option.some.inj (hl.symm.trans hline))
        cases hk.symm.trans (find?_eq_some.mpr ⟨hhome.unique h.under, rfl⟩)
      refine h.next hunder (fun k => (h.settles k).next (hnone k)) (hright nofun nofun ?_)
      exact fun k v hk => absurd hk (hnone k v)
    | some k =>
      obtain ⟨rfl, rfl⟩ := find?_eq_some.mp hk
      have hassigns : Assigns ls i k value := ⟨hl, h.under⟩
      dsimp only
      obtain ⟨d, hd, hwrites, hkeep⟩ | ⟨hd, hnone⟩ := set?_effect c k value
      · rw [hd]
        refine h.next hunder (fun j => ?_) (hright nofun nofun fun j v hj => ?_)
        · by_cases hj : j = k
          · subst hj
            exact hassigns.settles hwrites
          · rw [hkeep j hj]
            exact (h.settles j).next fun v hv => hj (hv.unique hassigns).1
        · obtain ⟨rfl, rfl⟩ := hj.unique hassigns
          exact ⟨_, hwrites⟩
      · rw [hd]
        exact .value hassigns hnone

/-- A run takes all lines as they are meant, up to the first that is wrong. -/
theorem Reached.run (h : Reached ls i s c) (hi : i ≤ ls.length) :
    match run (i + 1) s c (ls.drop i) with
    | .ok d => ∃ s', Reached ls ls.length s' d
    | .error e => ∃ j, Fault ls j e ∧ ∀ m < j, ∀ e', ¬Fault ls m e' := by
  -- The lines that are left become fewer, and those before them are settled.
  induction hrest : ls.drop i generalizing i s c with
  | nil =>
    obtain rfl : i = ls.length := Nat.le_antisymm hi (List.drop_eq_nil_iff.mp hrest)
    exact ⟨s, h⟩
  | cons l rest ih =>
    have hl : ls[i]? = some l := by
      have hhead := congrArg List.head? hrest
      rwa [List.head?_drop] at hhead
    have hi' : i + 1 ≤ ls.length := (List.getElem?_eq_some_iff.mp hl).1
    have hrest' : ls.drop (i + 1) = rest := by
      rw [← List.tail_drop, hrest, List.tail_cons]
    have hstep := h.step hl
    rw [Config.run]
    rcases hresult : Config.step (.ofNat (i + 1)) s c l with e | ⟨s', d⟩
    · rw [hresult] at hstep
      exact ⟨i, hstep, h.faultless⟩
    · rw [hresult] at hstep
      exact ih hstep hi' hrest'

theorem Settles.rate (h : Settles ls i .fps x) : ∃ n, x = .rate n ∧ minFps ≤ n ∧ n ≤ maxFps := by
  obtain ⟨_, _, _, _, hwrites, _⟩ | ⟨rfl, _⟩ := h
  · cases hwrites with
    | fps _ hmin hmax => exact ⟨_, rfl, hmin, hmax⟩
  · exact ⟨_, rfl, by decide, by decide⟩

theorem run_meaning (ls : List Line) : Meaning ls (Config.run 1 .root {} ls) := by
  have hrun := (reached_zero ls).run (Nat.zero_le _)
  rw [List.drop_zero] at hrun
  cases hresult : Config.run 1 .root {} ls with
  | error e =>
    rw [hresult] at hrun
    obtain ⟨i, hfault, hfirst⟩ := hrun
    constructor
    case fails => exact ⟨fun _ => ⟨i, e, hfault⟩, fun _ => ⟨e, rfl⟩⟩
    case first =>
      intro e'
      constructor
      · rintro ⟨⟩
        exact ⟨i, hfault, hfirst⟩
      · rintro ⟨j, hfault', hfirst'⟩
        obtain hlt | rfl | hlt := Nat.lt_trichotomy i j
        · exact absurd hfault (hfirst' i hlt e)
        · rw [hfault.unique hfault']
        · exact absurd hfault' (hfirst j hlt e')
    case settles => exact nofun
    case rate => exact nofun
  | ok d =>
    rw [hresult] at hrun
    obtain ⟨s', hreached⟩ := hrun
    have hright (i : Nat) (e : ParseError) : ¬Fault ls i e := by
      intro hfault
      have hi : i < ls.length := by
        have hline : ∃ l, ls[i]? = some l := by
          obtain ⟨hline, -⟩ | hline | ⟨hline, -⟩ := hfault
          · exact ⟨_, hline⟩
          · exact ⟨_, hline⟩
          · exact ⟨_, hline.1⟩
        obtain ⟨l, hl⟩ := hline
        exact (List.getElem?_eq_some_iff.mp hl).1
      exact hreached.faultless i hi e hfault
    constructor
    case fails => exact ⟨nofun, fun ⟨i, e, hfault⟩ => absurd hfault (hright i e)⟩
    case first => exact ⟨nofun, fun ⟨i, hfault, _⟩ => absurd hfault (hright i _)⟩
    case settles =>
      rintro c ⟨⟩
      exact hreached.settles
    case rate =>
      rintro c ⟨⟩
      obtain ⟨n, hn, hmin, hmax⟩ := (hreached.settles .fps).rate
      obtain rfl : d.fps = n := Value.rate.inj hn
      exact ⟨hmin, hmax⟩

/-! ## The text -/

def Reads (text : List Char) (ls : List Line) : Prop :=
  ∃ raws, Text.Splits text raws ∧ List.Forall₂ Line.Reads ls raws

theorem forall₂_reads_iff {raws : List (List Char)} :
    List.Forall₂ Line.Reads ls raws ↔ ls = raws.map Line.ofText := by
  constructor
  · intro h
    induction h with
    | nil => rfl
    | cons hl _ ih => rw [Line.reads_iff.mp hl, ih, List.map_cons]
  · rintro rfl
    induction raws with
    | nil => exact .nil
    | cons raw raws ih => exact .cons (Line.reads_iff.mpr rfl) ih

theorem reads_iff {text : List Char} : Reads text ls ↔ ls = (Text.lines text).map Line.ofText := by
  constructor
  · rintro ⟨raws, hsplits, hreads⟩
    rw [forall₂_reads_iff.mp hreads, Text.splits_iff.mp hsplits]
  · rintro rfl
    exact ⟨_, Text.splits_iff.mpr rfl, forall₂_reads_iff.mpr rfl⟩

/-- A settings file means what its lines say, and every text has its lines. -/
theorem parse_meaning (text : List Char) :
    ∃ ls, (∀ ls', Reads text ls' ↔ ls' = ls) ∧ Meaning ls (parse text) :=
  ⟨_, fun _ => reads_iff, run_meaning _⟩

/-- The frame rate is set twice in its section and once elsewhere. -/
example :
    let text := "[display]\nfps = +09 # ten\r\n[ protocol ]\nfps = 0\n[display]\nfps = \"10\""
    parse text.toList = .ok { fps := 10 } := by
  decide +kernel

end PanelLink.Config
