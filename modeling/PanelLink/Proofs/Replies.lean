import PanelLink.Wire.Reply

/-!
Replies under construction. A reply is a status and the bytes added so far; in the report that goes
out they stand one after the other, with zeros behind. The report may as well be there from the
start and be written in place: the two agree after any operations, so nothing that was cleared away
or did not fit is ever left in a report.
-/
namespace PanelLink

namespace Reply

variable {r q : Reply} {b : UInt8} {bytes : Bytes}

/-! ## One operation -/

theorem push_ok (h : r.push b = .ok q) :
    q.status = r.status ∧ q.payload = r.payload ++ [b] ∧ r.payload.length < capacity := by
  unfold push at h
  split at h
  · cases h
  · obtain rfl := Except.ok.inj h
    exact ⟨rfl, rfl, by omega⟩

theorem push_error {x : ReplyFull} (h : r.push b = .error x) : capacity ≤ r.payload.length := by
  unfold push at h
  split at h
  · assumption
  · cases h

theorem append_eq_ok (h : bytes.length ≤ r.remaining) :
    r.append bytes = .ok { r with payload := r.payload ++ bytes } := by
  unfold append
  rw [if_neg (by omega)]

/-- Whether a reply takes the bytes depends on its length alone. -/
theorem append_eq_error_iff (hr : r.payload.length ≤ capacity) :
    r.append bytes = .error .full ↔ capacity < r.payload.length + bytes.length := by
  unfold append remaining
  by_cases h : capacity - r.payload.length < bytes.length
  · rw [if_pos h]
    exact ⟨fun _ => by omega, fun _ => rfl⟩
  · rw [if_neg h]
    exact ⟨nofun, fun hover => by omega⟩

theorem append_cases (hr : r.payload.length ≤ capacity) (bytes : Bytes) :
    (capacity < r.payload.length + bytes.length ∧ r.append bytes = .error .full) ∨
      (r.payload.length + bytes.length ≤ capacity ∧
        r.append bytes = .ok { r with payload := r.payload ++ bytes }) := by
  by_cases h : r.payload.length + bytes.length ≤ capacity
  · have hroom : bytes.length ≤ r.remaining := by
      unfold remaining
      omega
    exact .inr ⟨h, append_eq_ok hroom⟩
  · have hover : capacity < r.payload.length + bytes.length := by omega
    exact .inl ⟨hover, (append_eq_error_iff hr).mpr hover⟩

/-- A byte is added like a byte string of its own. -/
theorem push_eq_append (r : Reply) (b : UInt8) : r.push b = r.append [b] := by
  unfold push append remaining
  by_cases h : capacity ≤ r.payload.length
  · have hfull : capacity - r.payload.length < [b].length := by simp; omega
    rw [if_pos h, if_pos hfull]
  · have hroom : ¬ capacity - r.payload.length < [b].length := by simp; omega
    rw [if_neg h, if_neg hroom]

/-- Bytes that fit may be added one by one. -/
theorem foldlM_push (h : r.payload.length + bytes.length ≤ capacity) :
    bytes.foldlM push r = .ok { r with payload := r.payload ++ bytes } := by
  induction bytes generalizing r with
  | nil =>
    rw [List.append_nil]
    rfl
  | cons b bytes ih =>
    have hlength : (b :: bytes).length = 1 + bytes.length := by
      rw [List.length_cons, Nat.add_comm]
    have hone : [b].length ≤ r.remaining := by
      rw [List.length_singleton]
      unfold remaining
      omega
    have hpush : r.push b = .ok { r with payload := r.payload ++ [b] } :=
      (r.push_eq_append b).trans (append_eq_ok hone)
    have hrest := ih (r := { r with payload := r.payload ++ [b] })
      (by rw [List.length_append, List.length_singleton]; omega)
    rw [List.foldlM_cons, hpush]
    show bytes.foldlM push { r with payload := r.payload ++ [b] } = _
    rw [hrest, List.append_assoc, List.singleton_append]

/-- A reply whose payload fits is a whole report, zeros after the payload. -/
theorem frame_eq (h : r.payload.length ≤ capacity) :
    r.frame = r.status.code :: r.payload ++ List.replicate (capacity - r.payload.length) 0 ∧
    r.frame.length = reportSize := by
  have hroom : reportSize - (r.status.code :: r.payload).length = capacity - r.payload.length := by
    simp only [List.length_cons, capacity]
    omega
  constructor
  · rw [frame, Bytes.padTo, hroom]
  · exact r.length_frame h

/-- To add bytes is to write them over the zeros behind the payload. -/
theorem overlay_frame (h : r.payload.length + bytes.length ≤ capacity) :
    Bytes.overlay (1 + r.payload.length) bytes r.frame =
      { r with payload := r.payload ++ bytes : Reply }.frame := by
  have hfits : r.payload.length ≤ capacity := by omega
  have hgrown : (r.payload ++ bytes).length ≤ capacity := by
    rw [List.length_append]
    exact h
  have hfront : (r.status.code :: r.payload).length = 1 + r.payload.length := by
    rw [List.length_cons, Nat.add_comm]
  have hzeros : capacity - (r.payload ++ bytes).length =
      capacity - r.payload.length - bytes.length := by
    rw [List.length_append]
    omega
  rw [(frame_eq hfits).1, (frame_eq (r := { r with payload := r.payload ++ bytes }) hgrown).1,
    hzeros, Bytes.overlay, ← hfront, List.take_left, List.drop_append, List.drop_replicate]
  simp

/-! ## Operations in any order -/

inductive Op where
  | ofStatus (s : Status)
  | withPayload (s : Status) (payload : Bytes)
  | push (b : UInt8)
  | append (bytes : Bytes)
  | clear
  | setStatus (s : Status)
  deriving DecidableEq

def perform (r : Reply) : Op → Except ReplyFull Reply
  | .ofStatus s => .ok (ofStatus s)
  | .withPayload s payload => withPayload s payload
  | .push b => r.push b
  | .append bytes => r.append bytes
  | .clear => .ok r.clear
  | .setStatus s => .ok (r.setStatus s)

/-- A reply with the operations that succeeded, latest first. One that fails leaves it as it is. -/
def step (x : Reply × List Op) (op : Op) : Reply × List Op :=
  match x.1.perform op with
  | .ok r => (r, op :: x.2)
  | .error _ => x

def run (s : Status) (ops : List Op) : Reply × List Op :=
  ops.foldl step (ofStatus s, [.ofStatus s])

namespace Op

def status? : Op → Option Status
  | ofStatus s => some s
  | withPayload s _ => some s
  | setStatus s => some s
  | _ => none

/-- The bytes added since the last clear or the beginning, by operations with the latest first. -/
def added : List Op → Bytes
  | [] => []
  | ofStatus _ :: _ => []
  | withPayload _ payload :: _ => payload
  | push b :: done => added done ++ [b]
  | append bytes :: done => added done ++ bytes
  | clear :: _ => []
  | setStatus _ :: done => added done

end Op

/-- The reply is what the successful operations make of it. -/
structure Made (r : Reply) (done : List Op) : Prop where
  status : done.findSome? Op.status? = some r.status
  payload : r.payload = Op.added done
  fits : r.payload.length ≤ capacity

theorem made_ofStatus (s : Status) : (ofStatus s).Made [.ofStatus s] :=
  ⟨rfl, rfl, Nat.zero_le _⟩

variable {done : List Op}

theorem Made.perform (h : r.Made done) {op : Op} (hq : r.perform op = .ok q) :
    q.Made (op :: done) := by
  have append {bytes : Bytes} (ha : r.append bytes = .ok q) :
      q.status = r.status ∧ q.payload = Op.added done ++ bytes ∧ q.payload.length ≤ capacity := by
    obtain ⟨-, he⟩ | ⟨hroom, he⟩ := append_cases h.fits bytes
    · rw [he] at ha
      cases ha
    · rw [he] at ha
      cases ha
      refine ⟨rfl, by rw [h.payload], ?_⟩
      rw [List.length_append]
      exact hroom
  cases op with
  | ofStatus s =>
    cases hq
    exact ⟨rfl, rfl, Nat.zero_le _⟩
  | withPayload s payload =>
    have hs : (ofStatus s).append payload = .ok q := hq
    obtain ⟨-, he⟩ | ⟨hroom, he⟩ := append_cases (r := ofStatus s) (Nat.zero_le _) payload
    · rw [he] at hs
      cases hs
    · rw [he] at hs
      cases hs
      have hlength : payload.length ≤ capacity := by simpa [ofStatus] using hroom
      exact ⟨rfl, rfl, hlength⟩
  | push b =>
    have ha : r.append [b] = .ok q := (r.push_eq_append b).symm.trans hq
    obtain ⟨hstatus, hpayload, hfits⟩ := append ha
    exact ⟨hstatus ▸ h.status, hpayload, hfits⟩
  | append bytes =>
    obtain ⟨hstatus, hpayload, hfits⟩ := append hq
    exact ⟨hstatus ▸ h.status, hpayload, hfits⟩
  | clear =>
    cases hq
    exact ⟨h.status, rfl, Nat.zero_le _⟩
  | setStatus s =>
    cases hq
    exact ⟨rfl, h.payload, h.fits⟩

end Reply

/-! ## The report written in place -/

/-- A report under construction: all its bytes, and how many of its payload are used. -/
structure Draft where
  report : Bytes
  used : Nat
  deriving DecidableEq

namespace Draft

def ofStatus (s : Status) : Draft :=
  ⟨s.code :: List.replicate Reply.capacity 0, 0⟩

def push (d : Draft) (b : UInt8) : Except ReplyFull Unit × Draft :=
  if Reply.capacity ≤ d.used then (.error .full, d)
  else (.ok (), ⟨d.report.set (1 + d.used) b, d.used + 1⟩)

def append (d : Draft) (bytes : Bytes) : Except ReplyFull Unit × Draft :=
  if Reply.capacity - d.used < bytes.length then (.error .full, d)
  else (.ok (), ⟨Bytes.overlay (1 + d.used) bytes d.report, d.used + bytes.length⟩)

def pushAll (d : Draft) : Bytes → Except ReplyFull Unit × Draft
  | [] => (.ok (), d)
  | b :: bytes =>
    match d.push b with
    | (.error e, d) => (.error e, d)
    | (.ok (), d) => d.pushAll bytes

def clear (d : Draft) : Draft :=
  ⟨d.report.take 1 ++ List.replicate Reply.capacity 0, 0⟩

def setStatus (d : Draft) (s : Status) : Draft :=
  ⟨d.report.set 0 s.code, d.used⟩

def perform (d : Draft) : Reply.Op → Except ReplyFull Unit × Draft
  | .ofStatus s => (.ok (), ofStatus s)
  | .withPayload s payload =>
    match (ofStatus s).append payload with
    | (.error e, _) => (.error e, d)
    | (.ok (), made) => (.ok (), made)
  | .push b => d.push b
  | .append bytes => d.append bytes
  | .clear => (.ok (), d.clear)
  | .setStatus s => (.ok (), d.setStatus s)

def run (s : Status) (ops : List Reply.Op) : Draft :=
  ops.foldl (fun d op => (d.perform op).2) (ofStatus s)

variable {d d' : Draft} {r q : Reply} {bytes : Bytes}

/-- The report is the one that the reply makes. -/
structure Holds (d : Draft) (r : Reply) : Prop where
  report : d.report = r.frame
  used : d.used = r.payload.length
  fits : r.payload.length ≤ Reply.capacity

/-- The operation does to the draft what it does to the reply, and nothing where that fails. -/
def Follows (d : Draft) (made : Except ReplyFull Unit × Draft) : Except ReplyFull Reply → Prop
  | .ok q => made.1 = .ok () ∧ made.2.Holds q
  | .error e => made = (.error e, d)

theorem holds_ofStatus (s : Status) : (ofStatus s).Holds (.ofStatus s) :=
  ⟨rfl, rfl, Nat.zero_le _⟩

theorem Holds.append (h : d.Holds r) (bytes : Bytes) :
    d.Follows (d.append bytes) (r.append bytes) := by
  have hused := h.used
  have hfits := h.fits
  obtain ⟨hover, he⟩ | ⟨hroom, he⟩ := Reply.append_cases h.fits bytes
  · rw [he]
    exact if_pos (by omega)
  · rw [he, Draft.append, if_neg (by omega)]
    refine ⟨rfl, ?report, ?used, ?fits⟩
    case report =>
      show Bytes.overlay (1 + d.used) bytes d.report = _
      rw [h.used, h.report]
      exact Reply.overlay_frame hroom
    case used =>
      show d.used + bytes.length = (r.payload ++ bytes).length
      rw [h.used, List.length_append]
    case fits =>
      rw [List.length_append]
      exact hroom

/-- A byte written at its place is a byte string of its own written there. -/
theorem Holds.push_eq_append (h : d.Holds r) (b : UInt8) : d.push b = d.append [b] := by
  have hlength : d.report.length = reportSize := by
    rw [h.report]
    exact (Reply.frame_eq h.fits).2
  have hcapacity : Reply.capacity + 1 = reportSize := rfl
  unfold Draft.push Draft.append
  by_cases hfull : Reply.capacity ≤ d.used
  · have hone : Reply.capacity - d.used < [b].length := by simp; omega
    rw [if_pos hfull, if_pos hone]
  · have hone : ¬ Reply.capacity - d.used < [b].length := by simp; omega
    have hplace : 1 + d.used < d.report.length := by omega
    have hset : d.report.set (1 + d.used) b = Bytes.overlay (1 + d.used) [b] d.report := by
      rw [List.set_eq_take_append_cons_drop, if_pos hplace, Bytes.overlay, List.append_assoc]
      rfl
    rw [if_neg hfull, if_neg hone, hset]
    rfl

theorem Holds.push (h : d.Holds r) (b : UInt8) : d.Follows (d.push b) (r.push b) := by
  rw [h.push_eq_append, r.push_eq_append]
  exact h.append [b]

theorem Holds.clear (h : d.Holds r) : d.clear.Holds r.clear := by
  refine ⟨?_, rfl, Nat.zero_le _⟩
  show d.report.take 1 ++ List.replicate Reply.capacity 0 = r.clear.frame
  rw [h.report]
  rfl

theorem Holds.setStatus (h : d.Holds r) (s : Status) : (d.setStatus s).Holds (r.setStatus s) := by
  refine ⟨?_, h.used, h.fits⟩
  show d.report.set 0 s.code = (r.setStatus s).frame
  rw [h.report]
  rfl

theorem Holds.perform (h : d.Holds r) (op : Reply.Op) :
    d.Follows (d.perform op) (r.perform op) := by
  cases op with
  | ofStatus s => exact ⟨rfl, holds_ofStatus s⟩
  | withPayload s payload =>
    have hmade := (holds_ofStatus s).append payload
    show d.Follows _ ((Reply.ofStatus s).append payload)
    cases ha : (Reply.ofStatus s).append payload with
    | error e =>
      rw [ha] at hmade
      show d.perform _ = _
      simp only [Draft.perform, show (ofStatus s).append payload =
        (.error e, ofStatus s) from hmade]
    | ok q =>
      rw [ha] at hmade
      obtain ⟨hok, hq⟩ := hmade
      have he : (ofStatus s).append payload = (.ok (), ((ofStatus s).append payload).2) :=
        Prod.ext hok rfl
      simp only [Draft.perform]
      rw [he]
      exact ⟨rfl, hq⟩
  | push b => exact h.push b
  | append bytes => exact h.append bytes
  | clear => exact ⟨rfl, h.clear⟩
  | setStatus s => exact ⟨rfl, h.setStatus s⟩

/-- There is one draft of a reply. -/
theorem Holds.unique (h : d.Holds r) (h' : d'.Holds r) : d = d' := by
  cases d
  cases d'
  rw [mk.injEq]
  exact ⟨h.report.trans h'.report.symm, h.used.trans h'.used.symm⟩

private theorem Holds.append_ok (h : d.Holds r)
    (hroom : r.payload.length + bytes.length ≤ Reply.capacity) :
    ∃ made, d.append bytes = (.ok (), made) ∧
      made.Holds { r with payload := r.payload ++ bytes } := by
  have hfollows := h.append bytes
  have hle : bytes.length ≤ r.remaining := by
    unfold Reply.remaining
    omega
  rw [Reply.append_eq_ok hle] at hfollows
  exact ⟨(d.append bytes).2, Prod.ext hfollows.1 rfl, hfollows.2⟩

/-- Bytes that fit may be written one by one. -/
theorem Holds.pushAll (h : d.Holds r) (hroom : r.payload.length + bytes.length ≤ Reply.capacity) :
    d.pushAll bytes = d.append bytes := by
  induction bytes generalizing d r with
  | nil =>
    obtain ⟨made, he, hmade⟩ := h.append_ok hroom
    rw [List.append_nil] at hmade
    rw [he, h.unique hmade]
    rfl
  | cons b bytes ih =>
    have hlength : (b :: bytes).length = 1 + bytes.length := by
      rw [List.length_cons, Nat.add_comm]
    have hone : r.payload.length + [b].length ≤ Reply.capacity := by
      rw [List.length_singleton]
      omega
    obtain ⟨whole, hwhole, hw⟩ := h.append_ok hroom
    obtain ⟨first, hfirst, hf⟩ := h.append_ok hone
    have hrest : (r.payload ++ [b]).length + bytes.length ≤ Reply.capacity := by
      rw [List.length_append, List.length_singleton]
      omega
    obtain ⟨last, hlast, hl⟩ := hf.append_ok hrest
    have hsame : last = whole := by
      rw [List.append_assoc, List.singleton_append] at hl
      exact hl.unique hw
    rw [hwhole, Draft.pushAll, h.push_eq_append, hfirst, ← hsame, ← hlast]
    exact ih hf hrest

private theorem holds_run (h : d.Holds r) {done : List Reply.Op} (hr : r.Made done)
    (ops : List Reply.Op) :
    (ops.foldl Reply.step (r, done)).1.Made (ops.foldl Reply.step (r, done)).2 ∧
      (ops.foldl (fun d op => (d.perform op).2) d).Holds (ops.foldl Reply.step (r, done)).1 := by
  induction ops generalizing d r done with
  | nil => exact ⟨hr, h⟩
  | cons op ops ih =>
    have hfollows := h.perform op
    rw [List.foldl_cons, List.foldl_cons, Reply.step]
    cases hop : r.perform op with
    | ok q =>
      rw [hop] at hfollows
      exact ih hfollows.2 (hr.perform hop)
    | error e =>
      rw [hop] at hfollows
      have hsame : d.perform op = (.error e, d) := hfollows
      rw [hsame]
      exact ih h hr

end Draft

/-- After any operations the report, in place or not, is the status set last, then the bytes added
since the last clear, then zeros. There are never more than fit. What would be too much is refused
and changes nothing; bytes that are taken together could have been taken one by one. -/
theorem Reply.status_and_bytes (s : Status) (ops : List Reply.Op) :
    let r := (run s ops).1
    let done := (run s ops).2
    let d := Draft.run s ops
    (∃ last, done.findSome? Op.status? = some last ∧
      d.report = last.code :: Op.added done ++
        List.replicate (capacity - (Op.added done).length) 0) ∧
    (d.report.length = reportSize ∧ d.report = r.frame ∧ d.used = r.payload.length ∧
      r.payload = Op.added done) ∧
    (r.payload.length ≤ capacity ∧ r.remaining = capacity - r.payload.length) ∧
    (∀ b, (r.push b = .error .full ↔ capacity < r.payload.length + 1) ∧
      (capacity < r.payload.length + 1 → d.push b = (.error .full, d))) ∧
    (∀ bytes, (r.append bytes = .error .full ↔ capacity < r.payload.length + bytes.length) ∧
      (capacity < r.payload.length + bytes.length → d.append bytes = (.error .full, d))) ∧
    ∀ bytes q, r.append bytes = .ok q →
      bytes.foldlM push r = .ok q ∧ d.pushAll bytes = d.append bytes := by
  intro r done d
  obtain ⟨hmade, hd⟩ := Draft.holds_run (Draft.holds_ofStatus s) (made_ofStatus s) ops
  have hr : r.Made done := hmade
  have hd : d.Holds r := hd
  obtain ⟨hframe, hlength⟩ := frame_eq hr.fits
  have append (bytes : Bytes) :
      (r.append bytes = .error .full ↔ capacity < r.payload.length + bytes.length) ∧
        (capacity < r.payload.length + bytes.length → d.append bytes = (.error .full, d)) := by
    refine ⟨append_eq_error_iff hr.fits, fun hover => ?_⟩
    have hfollows := hd.append bytes
    rw [(append_eq_error_iff hr.fits).mpr hover] at hfollows
    exact hfollows
  refine ⟨⟨r.status, hr.status, ?report⟩, ⟨?length, hd.report, hd.used, hr.payload⟩, ⟨hr.fits, rfl⟩,
    ?push, append, ?each⟩
  case report => rw [hd.report, hframe, hr.payload]
  case length => rw [hd.report, hlength]
  case push =>
    intro b
    rw [push_eq_append, hd.push_eq_append]
    exact append [b]
  case each =>
    intro bytes q hq
    obtain ⟨-, he⟩ | ⟨hroom, he⟩ := append_cases hr.fits bytes
    · rw [he] at hq
      cases hq
    · exact ⟨(foldlM_push hroom).trans (he.symm.trans hq), hd.pushAll hroom⟩

/-- Three bytes are cleared away, one comes in their place, and 31 more do not fit behind it. -/
theorem Reply.one_byte_left :
    let ops : List Op := [.append [1, 2, 3], .clear, .push 9, .append (List.replicate 31 7),
      .setStatus .notFound]
    let d := Draft.run .success ops
    d.report = 0xE6 :: 9 :: List.replicate 30 0 ∧
    d.append (List.replicate 31 7) = (.error .full, d) ∧ d.pushAll [5, 6] = d.append [5, 6] := by
  intro ops d
  obtain ⟨⟨last, hlast, hreport⟩, -, -, -, happend, heach⟩ := status_and_bytes .success ops
  obtain rfl : Status.notFound = last := Option.some.inj hlast
  have hover : capacity < (run .success ops).1.payload.length + (List.replicate 31 7).length := by
    decide
  exact ⟨hreport, (happend _).2 hover, (heach [5, 6] ⟨.notFound, [9, 5, 6]⟩ rfl).2⟩

end PanelLink
