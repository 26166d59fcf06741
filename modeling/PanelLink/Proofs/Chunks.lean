import PanelLink.Upload.ChunkBuffer

/-! The chunk buffer over any run of calls: what is handed to the commits is the input, cut into
whole chunks and a tail that a flush hands over. -/
namespace PanelLink.ChunkBuffer

variable {size : Nat} {τ ε : Type}

/-! ## What is handed over -/

/-- A block given to a commit, with the answer. -/
structure Handover (ε : Type) where
  block : Bytes
  answer : Except ε Unit

def handed (hs : List (Handover ε)) : Bytes :=
  (hs.map Handover.block).flatten

@[simp] theorem handed_nil : handed ([] : List (Handover ε)) = [] := rfl

@[simp] theorem handed_cons (h : Handover ε) (hs : List (Handover ε)) :
    handed (h :: hs) = h.block ++ handed hs := rfl

@[simp] theorem handed_append (hs gs : List (Handover ε)) :
    handed (hs ++ gs) = handed hs ++ handed gs := by
  simp [handed]

def Unfailing (hs : List (Handover ε)) : Prop :=
  ∀ h ∈ hs, h.answer = .ok ()

theorem unfailing_append {hs gs : List (Handover ε)} :
    Unfailing (hs ++ gs) ↔ Unfailing hs ∧ Unfailing gs := by
  simp only [Unfailing, List.mem_append, or_imp, forall_and]

/-- The commit, which also notes what it is given and how it answers. -/
def noting (commit : τ → Bytes → Except ε Unit × τ) (t : List (Handover ε) × τ) (block : Bytes) :
    Except ε Unit × List (Handover ε) × τ :=
  ((commit t.2 block).1, t.1 ++ [⟨block, (commit t.2 block).1⟩], (commit t.2 block).2)

/-- Bytes are taken chunk by chunk: what is short of a chunk is kept, a chunk is handed over, and
after one that is refused nothing is left. -/
inductive Takes (size : Nat) : Bytes → List (Handover ε) → Except ε Unit → Bytes → Prop
  | rest {s : Bytes} (h : s.length < size) : Takes size s [] (.ok ()) s
  | block {b s p : Bytes} {hs : List (Handover ε)} {r : Except ε Unit} (hb : b.length = size)
      (h : Takes size s hs r p) : Takes size (b ++ s) (⟨b, .ok ()⟩ :: hs) r p
  | refused {b s : Bytes} {e : ε} (hb : b.length = size) :
      Takes size (b ++ s) [⟨b, .error e⟩] (.error e) []

namespace Takes

variable {s p : Bytes} {hs : List (Handover ε)} {r : Except ε Unit}

theorem length_block (h : Takes size s hs r p) : ∀ x ∈ hs, x.block.length = size := by
  induction h with
  | rest => simp
  | block hb _ ih => simpa [hb] using ih
  | refused hb => simpa using hb

theorem length_lt (hsize : 0 < size) (h : Takes size s hs r p) : p.length < size := by
  induction h with
  | rest h => exact h
  | block _ _ ih => exact ih
  | refused => exact hsize

/-- Without a failure all is there, in whole chunks and what is left. -/
theorem unfailing (hsize : 0 < size) (h : Takes size s hs r p) (hok : Unfailing hs) :
    r = .ok () ∧ hs.length = s.length / size ∧ handed hs ++ p = s := by
  induction h with
  | rest h => exact ⟨rfl, (Nat.div_eq_of_lt h).symm, rfl⟩
  | @block b s p hs r hb _ ih =>
    obtain ⟨hr, hcount, hall⟩ := ih fun x hx => hok x (List.mem_cons_of_mem _ hx)
    refine ⟨hr, ?_, ?_⟩
    · rw [List.length_append, hb, Nat.add_div_left _ hsize, List.length_cons, hcount]
    · rw [handed_cons, List.append_assoc, hall]
  | @refused b s e hb => cases hok _ List.mem_cons_self

/-- A failure is the last thing that happens, and nothing is left. -/
theorem failing (h : Takes size s hs r p) {j : Nat} {x : Handover ε} {e : ε}
    (hx : hs[j]? = some x) (he : x.answer = .error e) :
    r = .error e ∧ hs.length = j + 1 ∧ handed hs = s.take ((j + 1) * size) ∧ p = [] := by
  induction h generalizing j with
  | rest => simp at hx
  | @block b s p hs r hb _ ih =>
    cases j with
    | zero =>
      obtain rfl : (⟨b, .ok ()⟩ : Handover ε) = x := by simpa using hx
      cases he
    | succ j =>
      obtain ⟨hr, hcount, htake, hp⟩ := ih (by simpa using hx)
      refine ⟨hr, congrArg (· + 1) hcount, ?_, hp⟩
      have hlength : (j + 1 + 1) * size = b.length + (j + 1) * size := by
        rw [hb, Nat.succ_mul, Nat.add_comm]
      rw [handed_cons, htake, hlength, List.take_length_add_append]
  | @refused b s e' hb =>
    obtain rfl : j = 0 := by
      have := (List.getElem?_eq_some_iff.mp hx).1
      simpa using this
    obtain rfl : (⟨b, .error e'⟩ : Handover ε) = x := by simpa using hx
    obtain rfl : e' = e := Except.error.inj he
    refine ⟨rfl, rfl, ?_, rfl⟩
    have hlength : (0 + 1) * size = b.length := by omega
    rw [hlength, List.take_left]
    simp

end Takes

/-! ## Calls -/

/-- A call of the buffer, with its commit. -/
inductive Call (τ ε : Type)
  | accept (commit : τ → Bytes → Except ε Unit × τ) (data : Bytes)
  | flush (commit : τ → Bytes → Except ε Unit × τ)

namespace Call

def input : Call τ ε → Bytes
  | accept _ data => data
  | flush _ => []

def perform : Call τ ε → ChunkBuffer size × τ → Except ε Unit × ChunkBuffer size × τ
  | accept commit data, x => x.1.accept commit data x.2
  | flush commit, x => x.1.flush commit x.2

def noted : Call τ ε → Call (List (Handover ε) × τ) ε
  | accept commit data => accept (noting commit) data
  | flush commit => flush (noting commit)

/-- What the call hands to its commit. -/
def handovers (c : Call τ ε) (x : ChunkBuffer size × τ) : List (Handover ε) :=
  (c.noted.perform (x.1, [], x.2)).2.2.1

end Call

def after (calls : List (Call τ ε)) (x : ChunkBuffer size × τ) : ChunkBuffer size × τ :=
  calls.foldl (fun x c => (c.perform x).2) x

def handovers : List (Call τ ε) → ChunkBuffer size × τ → List (Handover ε)
  | [], _ => []
  | c :: calls, x => c.handovers x ++ handovers calls (c.perform x).2

/-! ## One call -/

variable {c : ChunkBuffer size} {t : τ}

/-- Byte by byte the bytes are taken chunk by chunk, and to note what is handed over changes nothing
else. -/
theorem accept_takes (commit : τ → Bytes → Except ε Unit × τ) (data : Bytes)
    (hc : c.pending.length < size) :
    ∃ hs, (∀ log : List (Handover ε), accept (noting commit) data c (log, t) =
        ((accept commit data c t).1, (accept commit data c t).2.1,
          log ++ hs, (accept commit data c t).2.2)) ∧
      Takes size (c.pending ++ data) hs (accept commit data c t).1
        (accept commit data c t).2.1.pending := by
  -- The chunk in hand is never full, so a byte at most fills it; the rest goes on from the longer
  -- chunk or from an empty one.
  induction data generalizing c t with
  | nil =>
    refine ⟨[], fun log => ?_, ?_⟩
    · rw [List.append_nil]
      rfl
    · rw [List.append_nil]
      exact .rest hc
  | cons b bs ih =>
    have hsplit : c.pending ++ b :: bs = c.pending ++ [b] ++ bs := List.append_cons _ _ _
    rw [hsplit]
    unfold accept
    dsimp only
    split
    · rename_i hlt
      exact ih hlt
    rename_i hfull
    have hblock : (c.pending ++ [b]).length = size := by
      simp only [List.length_append, List.length_singleton] at hfull ⊢
      omega
    rcases hr : commit t (c.pending ++ [b]) with ⟨e | u, t'⟩
    · refine ⟨[⟨c.pending ++ [b], .error e⟩], fun log => ?_, .refused hblock⟩
      simp only [noting, hr]
    · have hempty : (empty : ChunkBuffer size).pending.length < size :=
        Nat.lt_of_le_of_lt (Nat.zero_le _) hc
      obtain ⟨hs, heq, htakes⟩ := ih hempty (t := t')
      refine ⟨⟨c.pending ++ [b], .ok ()⟩ :: hs, fun log => ?_, .block hblock htakes⟩
      simp only [noting, hr]
      rw [heq, List.append_assoc]
      rfl

theorem accept_handovers (commit : τ → Bytes → Except ε Unit × τ) (data : Bytes)
    (hc : c.pending.length < size) :
    (∀ log : List (Handover ε), accept (noting commit) data c (log, t) =
        ((accept commit data c t).1, (accept commit data c t).2.1,
          log ++ (Call.accept commit data).handovers (c, t), (accept commit data c t).2.2)) ∧
      Takes size (c.pending ++ data) ((Call.accept commit data).handovers (c, t))
        (accept commit data c t).1 (accept commit data c t).2.1.pending := by
  obtain ⟨hs, hnoted, htakes⟩ := accept_takes commit data hc (t := t)
  have hhs : (Call.accept commit data).handovers (c, t) = hs :=
    congrArg (fun x => x.2.2.1) (hnoted [])
  rw [hhs]
  exact ⟨hnoted, htakes⟩

/-- An accept hands over whole chunks of the pending bytes and the new ones; the first failure ends
it with nothing pending. -/
structure Accepted (size : Nat) (p d : Bytes) (hs : List (Handover ε)) (r : Except ε Unit)
    (p' : Bytes) : Prop where
  whole : ∀ h ∈ hs, h.block.length = size
  short : p'.length < size
  stored : Unfailing hs →
    r = .ok () ∧ hs.length = (p.length + d.length) / size ∧ handed hs ++ p' = p ++ d
  refused : ∀ (j : Nat) (h : Handover ε) (e : ε), hs[j]? = some h → h.answer = .error e →
    r = .error e ∧ hs.length = j + 1 ∧ handed hs = (p ++ d).take ((j + 1) * size) ∧ p' = []

/-- A flush hands over the pending bytes, if any, and leaves none. -/
structure Flushed (p : Bytes) (hs : List (Handover ε)) (r : Except ε Unit) (p' : Bytes) : Prop where
  idle : p = [] → hs = [] ∧ r = .ok ()
  tail : p ≠ [] → hs = [⟨p, r⟩]
  emptied : p' = []

theorem accept_accepted (commit : τ → Bytes → Except ε Unit × τ) (data : Bytes)
    (hc : c.pending.length < size) :
    Accepted size c.pending data ((Call.accept commit data).handovers (c, t))
      (accept commit data c t).1 (accept commit data c t).2.1.pending := by
  obtain ⟨-, htakes⟩ := accept_handovers commit data hc (t := t)
  have hsize : 0 < size := Nat.zero_lt_of_lt hc
  refine ⟨htakes.length_block, htakes.length_lt hsize, fun hok => ?_, fun j h e => htakes.failing⟩
  rw [← List.length_append]
  exact htakes.unfailing hsize hok

theorem flush_flushed (commit : τ → Bytes → Except ε Unit × τ) (c : ChunkBuffer size) (t : τ) :
    Flushed c.pending ((Call.flush commit).handovers (c, t)) (flush commit c t).1
      (flush commit c t).2.1.pending := by
  unfold Call.handovers Call.noted Call.perform flush
  by_cases hp : c.pending = []
  · simp only [if_pos hp]
    exact ⟨fun _ => ⟨rfl, rfl⟩, fun h => absurd hp h, hp⟩
  · simp only [if_neg hp]
    exact ⟨fun h => absurd h hp, fun _ => rfl, rfl⟩

namespace Call

theorem noted_perform (call : Call τ ε) (hc : c.pending.length < size)
    (log : List (Handover ε)) :
    call.noted.perform (c, log, t) =
      ((call.perform (c, t)).1, (call.perform (c, t)).2.1,
        log ++ call.handovers (c, t), (call.perform (c, t)).2.2) := by
  cases call with
  | accept commit data => exact (accept_handovers commit data hc).1 log
  | flush commit =>
    unfold handovers noted perform ChunkBuffer.flush
    by_cases hp : c.pending = []
    · simp only [if_pos hp, List.append_nil]
    · simp only [if_neg hp]
      rfl

theorem perform_short (call : Call τ ε) (hc : c.pending.length < size) :
    (call.perform (c, t)).2.1.pending.length < size := by
  cases call with
  | accept commit data => exact (accept_accepted commit data hc).short
  | flush commit =>
    have hp : (perform (flush commit) (c, t)).2.1.pending = [] := (flush_flushed commit c t).emptied
    rw [hp]
    exact Nat.zero_lt_of_lt hc

/-- As long as no commit fails a call keeps every byte. -/
theorem perform_stored (call : Call τ ε) (hc : c.pending.length < size)
    (hok : Unfailing (call.handovers (c, t))) :
    handed (call.handovers (c, t)) ++ (call.perform (c, t)).2.1.pending =
      c.pending ++ call.input := by
  cases call with
  | accept commit data => exact ((accept_accepted commit data hc).stored hok).2.2
  | flush commit =>
    have hflush := flush_flushed commit c t
    have hp : (perform (flush commit) (c, t)).2.1.pending = [] := hflush.emptied
    rw [hp, input, List.append_nil, List.append_nil]
    by_cases hempty : c.pending = []
    · rw [(hflush.idle hempty).1, hempty]
      rfl
    · rw [hflush.tail hempty]
      simp

end Call

/-! ## Runs of calls -/

theorem after_short (calls : List (Call τ ε)) {x : ChunkBuffer size × τ}
    (hx : x.1.pending.length < size) : (after calls x).1.pending.length < size := by
  induction calls generalizing x with
  | nil => exact hx
  | cons call calls ih => exact ih (call.perform_short hx)

theorem after_stored (calls : List (Call τ ε)) {x : ChunkBuffer size × τ}
    (hx : x.1.pending.length < size) (hok : Unfailing (handovers calls x)) :
    handed (handovers calls x) ++ (after calls x).1.pending =
      x.1.pending ++ (calls.map Call.input).flatten := by
  induction calls generalizing x with
  | nil => exact (List.append_nil _).symm
  | cons call calls ih =>
    obtain ⟨hcall, hcalls⟩ := unfailing_append.mp hok
    calc handed (handovers (call :: calls) x) ++ (after (call :: calls) x).1.pending
        = handed (call.handovers x) ++ (handed (handovers calls (call.perform x).2) ++
            (after calls (call.perform x).2).1.pending) := by
          rw [handovers, handed_append, List.append_assoc]
          rfl
      _ = handed (call.handovers x) ++ ((call.perform x).2.1.pending ++
            (calls.map Call.input).flatten) := by
          rw [ih (call.perform_short hx) hcalls]
      _ = x.1.pending ++ ((call :: calls).map Call.input).flatten := by
          rw [← List.append_assoc, call.perform_stored hx hcall, List.append_assoc]
          rfl

def fresh (size : Nat) (t : τ) : ChunkBuffer size × τ :=
  (empty, t)

/-- After any calls less than a chunk is pending; while no commit failed the bytes are all there,
once and in order; and the next call hands over what it should, whatever its commit does. -/
structure Exact (size : Nat) (t : τ) (calls : List (Call τ ε)) : Prop where
  short : (after calls (fresh size t)).1.pending.length < size
  stored : Unfailing (handovers calls (fresh size t)) →
    handed (handovers calls (fresh size t)) ++ (after calls (fresh size t)).1.pending =
      (calls.map Call.input).flatten
  accepted : ∀ (commit : τ → Bytes → Except ε Unit × τ) (data : Bytes),
    Accepted size (after calls (fresh size t)).1.pending data
      ((Call.accept commit data).handovers (after calls (fresh size t)))
      ((Call.accept commit data).perform (after calls (fresh size t))).1
      ((Call.accept commit data).perform (after calls (fresh size t))).2.1.pending
  flushed : ∀ commit : τ → Bytes → Except ε Unit × τ,
    Flushed (after calls (fresh size t)).1.pending
      ((Call.flush commit).handovers (after calls (fresh size t)))
      ((Call.flush commit).perform (after calls (fresh size t))).1
      ((Call.flush commit).perform (after calls (fresh size t))).2.1.pending
  noted : ∀ (call : Call τ ε) (log : List (Handover ε)),
    call.noted.perform ((after calls (fresh size t)).1, log, (after calls (fresh size t)).2) =
      ((call.perform (after calls (fresh size t))).1,
        (call.perform (after calls (fresh size t))).2.1,
        log ++ call.handovers (after calls (fresh size t)),
        (call.perform (after calls (fresh size t))).2.2)

/-- A buffer of any size is exact over any calls with any commits. -/
theorem calls_exact (hsize : 0 < size) (t : τ) (calls : List (Call τ ε)) : Exact size t calls := by
  have hempty : (fresh size t).1.pending.length < size := hsize
  have hshort := after_short calls hempty
  constructor
  case short => exact hshort
  case stored => exact after_stored calls hempty
  case accepted => exact fun commit data => accept_accepted commit data hshort
  case flushed => exact fun commit => flush_flushed commit _ _
  case noted => exact fun call log => call.noted_perform hshort log

/-- Two bytes wait and nine come: the second chunk of four is refused, and the eight bytes handed
over are the first of the eleven. -/
theorem calls_exact_refused :
    let commit (room : Nat) (_ : Bytes) : Except Unit Unit × Nat :=
      if room = 0 then (.error (), 0) else (.ok (), room - 1)
    let first : Call Nat Unit := .accept commit [1, 2]
    let second : Call Nat Unit := .accept commit [3, 4, 5, 6, 7, 8, 9, 10, 11]
    0 < 4 ∧ Exact 4 1 [first, second, .flush commit] ∧
      second.handovers (after [first] (fresh 4 1)) =
        [⟨[1, 2, 3, 4], .ok ()⟩, ⟨[5, 6, 7, 8], .error ()⟩] ∧
      (after [first, second] (fresh 4 1)).1.pending = [] :=
  ⟨by decide, calls_exact (by decide) _ _, rfl, rfl⟩

end PanelLink.ChunkBuffer
