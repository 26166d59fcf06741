import Mathlib.Control.Monad.Basic
import PanelLink.Config.Load
import PanelLink.Proofs.Characters
import PanelLink.Proofs.Gathering
import PanelLink.Proofs.Streaming

/-!
Loading the settings: what comes of it depends on the bytes of the file, not on the pieces they come
in, and a file that was opened is closed once.
-/
namespace PanelLink

variable {σ φ δ : Type} [FileStore σ φ δ]

namespace Config

open FileStore

variable {s : σ} {f : φ} {contents : Bytes}

/-- A file is read into `room` bytes. When they are full one more byte is asked for, which a file
that fits does not have. The number is that of the reads. -/
inductive Drains (room : Nat) (s : σ) (f : φ) : Nat → Except LoadError Bytes × φ × σ → Prop
  | failed {m : Nat} {bytes : Bytes} {e : StorageError} {g : φ} {u : σ} :
    Gathers room s f m (⟨bytes, some e⟩, g, u) → Drains room s f m (.error (.storage e), g, u)
  | ended {m : Nat} {bytes : Bytes} {g : φ} {u : σ} :
    Gathers room s f m (⟨bytes, none⟩, g, u) → bytes.length < room →
      Drains room s f m (.ok bytes, g, u)
  | unprobed {m : Nat} {bytes : Bytes} {e : StorageError} {g g' : φ} {u u' : σ} :
    Gathers room s f m (⟨bytes, none⟩, g, u) → room ≤ bytes.length →
    read u g 1 = (.error e, g', u') → Drains room s f (m + 1) (.error (.storage e), g', u')
  | filled {m : Nat} {bytes : Bytes} {g g' : φ} {u u' : σ} :
    Gathers room s f m (⟨bytes, none⟩, g, u) → room ≤ bytes.length →
    read u g 1 = (.ok [], g', u') → Drains room s f (m + 1) (.ok bytes, g', u')
  | exceeded {m : Nat} {bytes more : Bytes} {g g' : φ} {u u' : σ} :
    Gathers room s f m (⟨bytes, none⟩, g, u) → room ≤ bytes.length → more ≠ [] →
    read u g 1 = (.ok more, g', u') → Drains room s f (m + 1) (.error .tooLarge, g', u')

theorem readAll_drains (s : σ) (f : φ) : ∃ m, Drains maxSize s f m (readAll s f) := by
  obtain ⟨m, hm⟩ := readFull_gathers s f maxSize
  unfold readAll
  generalize readFull s f maxSize = out at hm ⊢
  obtain ⟨⟨bytes, _ | e⟩, g, u⟩ := out
  · dsimp only
    by_cases hlen : bytes.length < maxSize
    · rw [if_pos hlen]
      exact ⟨m, .ended hm hlen⟩
    · rw [if_neg hlen]
      rcases hread : read u g 1 with ⟨e | _ | ⟨b, bs⟩, g', u'⟩
      · exact ⟨m + 1, .unprobed hm (Nat.le_of_not_lt hlen) hread⟩
      · exact ⟨m + 1, .filled hm (Nat.le_of_not_lt hlen) hread⟩
      · exact ⟨m + 1, .exceeded hm (Nat.le_of_not_lt hlen) (List.cons_ne_nil b bs) hread⟩
  · exact ⟨m, .failed hm⟩

namespace Drains

variable {room m : Nat} {out : Except LoadError Bytes × φ × σ}

/-- No more reads than there is room for bytes, and one. -/
theorem le (h : Drains room s f m out) : m ≤ room + 1 := by
  cases h with
  | failed h => exact Nat.le_succ_of_le h.le
  | ended h => exact Nat.le_succ_of_le h.le
  | unprobed h => exact Nat.succ_le_succ h.le
  | filled h => exact Nat.succ_le_succ h.le
  | exceeded h => exact Nat.succ_le_succ h.le

theorem eq (h : Drains maxSize s f m out) : readAll s f = out := by
  unfold readAll
  cases h with
  | failed h => rw [h.eq]
  | ended h hlen =>
    rw [h.eq]
    exact if_pos hlen
  | unprobed h hlen hread =>
    rw [h.eq]
    dsimp only
    rw [if_neg (Nat.not_lt_of_le hlen), hread]
  | filled h hlen hread =>
    rw [h.eq]
    dsimp only
    rw [if_neg (Nat.not_lt_of_le hlen), hread]
  | @exceeded _ _ more _ _ _ _ h hlen hmore hread =>
    obtain ⟨b, bs, rfl⟩ := List.exists_cons_of_ne_nil hmore
    rw [h.eq]
    dsimp only
    rw [if_neg (Nat.not_lt_of_le hlen), hread]

/-- Whatever the pieces, all bytes are there unless there are too many. -/
theorem deals (h : Drains room s f m out) (hd : Deals s f contents) :
    out.1 = (if contents.length ≤ room then .ok contents else .error .tooLarge) ∧
      (closeFile out.2.2 out.2.1).1 = .ok () := by
  cases h with
  | failed h => cases (h.deals hd).1
  | ended h hlen =>
    obtain ⟨hgot, hleft⟩ := h.deals hd
    obtain rfl := congrArg Gathered.bytes hgot
    rw [List.length_take] at hlen
    have hall : contents.length ≤ room := by omega
    rw [if_pos hall, List.take_of_length_le hall]
    exact ⟨rfl, hleft.close⟩
  | unprobed h _ hread =>
    obtain ⟨b, rest, g, u, hread', -⟩ := (h.deals hd).2.read Nat.one_pos
    cases hread.symm.trans hread'
  | filled h hlen hread =>
    obtain ⟨hgot, hleft⟩ := h.deals hd
    obtain ⟨b, rest, g, u, hread', -, -, hend, hleft'⟩ := hleft.read Nat.one_pos
    cases hread.symm.trans hread'
    have hall : contents.length ≤ room := List.drop_eq_nil_iff.mp (hend rfl)
    obtain rfl := congrArg Gathered.bytes hgot
    rw [if_pos hall, List.take_of_length_le hall]
    exact ⟨rfl, hleft'.close⟩
  | exceeded h _ hmore hread =>
    obtain ⟨b, rest, g, u, hread', hsplit, -, -, hleft'⟩ := (h.deals hd).2.read Nat.one_pos
    cases hread.symm.trans hread'
    have hlong : ¬contents.length ≤ room := by
      intro hall
      rw [List.drop_eq_nil_of_le hall] at hsplit
      exact hmore (List.append_eq_nil_iff.mp hsplit.symm).1
    rw [if_neg hlong]
    exact ⟨rfl, hleft'.close⟩

theorem recorded {r : Recorded σ} {t : Ticket φ}
    {out : Except LoadError Bytes × Ticket φ × Recorded σ} (h : Drains room r t m out) :
    Drains room r.store t.handle m (out.1, out.2.1.handle, out.2.2.store) ∧
      out.2.1.number = t.number ∧
      out.2.2.calls = List.replicate m ⟨.read, some t.number⟩ ++ r.calls := by
  have hone {m : Nat} {got : Gathered} {g g' : Ticket φ} {u u' : Recorded σ}
      {x : Except StorageError Bytes} (h : Gathers room r t m (got, g, u))
      (hread : read u g 1 = (x, g', u')) : read u.store g.handle 1 = (x, g'.handle, u'.store) ∧
        g'.number = t.number ∧
        u'.calls = List.replicate (m + 1) ⟨.read, some t.number⟩ ++ r.calls := by
    obtain ⟨-, hnumber, hcalls⟩ := h.recorded
    obtain ⟨hstore, hnumber', hcalls'⟩ := Recorded.read_eq hread
    dsimp only at hnumber hcalls
    refine ⟨hstore, hnumber'.trans hnumber, ?_⟩
    rw [hcalls', hcalls, hnumber, List.replicate_succ, List.cons_append]
  cases h with
  | failed h =>
    obtain ⟨hplain, hbooks⟩ := h.recorded
    exact ⟨.failed hplain, hbooks⟩
  | ended h hlen =>
    obtain ⟨hplain, hbooks⟩ := h.recorded
    exact ⟨.ended hplain hlen, hbooks⟩
  | unprobed h hlen hread =>
    obtain ⟨hplain, hbooks⟩ := hone h hread
    exact ⟨.unprobed h.recorded.1 hlen hplain, hbooks⟩
  | filled h hlen hread =>
    obtain ⟨hplain, hbooks⟩ := hone h hread
    exact ⟨.filled h.recorded.1 hlen hplain, hbooks⟩
  | exceeded h hlen hmore hread =>
    obtain ⟨hplain, hbooks⟩ := hone h hread
    exact ⟨.exceeded h.recorded.1 hlen hmore hplain, hbooks⟩

end Drains

/-! ## The settings -/

def settle : Except LoadError Bytes → Except StorageError Unit → Except LoadError Config
  | .error e, _ => .error e
  | .ok _, .error e => .error (.storage e)
  | .ok bytes, .ok () => ofBytes bytes

variable {t : σ}

/-- A file that can be opened is read and then closed, whatever came of the reading. -/
theorem load_opened (ho : openFile s location .reading = (.ok f, t)) :
    load s = (settle (readAll t f).1 (closeFile (readAll t f).2.2 (readAll t f).2.1).1,
      (closeFile (readAll t f).2.2 (readAll t f).2.1).2) := by
  unfold load
  rw [ho]
  dsimp only
  rcases readAll t f with ⟨e | bytes, g, u⟩
  · rfl
  · dsimp only
    rcases closeFile u g with ⟨e | _, w⟩ <;> rfl

theorem load_deals (ho : openFile s location .reading = (.ok f, t)) (h : Deals t f contents) :
    (load s).1 = if contents.length ≤ maxSize then ofBytes contents else .error .tooLarge := by
  obtain ⟨m, hdrains⟩ := readAll_drains t f
  obtain ⟨hread, hclose⟩ := hdrains.deals h
  rw [load_opened ho, hread, hclose]
  by_cases hlen : contents.length ≤ maxSize
  · rw [if_pos hlen, if_pos hlen, settle]
  · rw [if_neg hlen, if_neg hlen, settle]

theorem ofBytes_text (text : List Char) :
    ofBytes (text.flatMap String.utf8EncodeChar) = (parse text).mapError .parse := by
  unfold ofBytes
  rw [Text.Utf8.decode?_eq_some.mpr rfl]
  dsimp only
  cases parse text <;> rfl

theorem ofBytes_garbled (h : ∀ text : List Char, contents ≠ text.flatMap String.utf8EncodeChar) :
    ofBytes contents = .error .invalidUtf8 := by
  have hnone : Text.Utf8.decode? contents = none :=
    Option.eq_none_iff_forall_ne_some.mpr fun text htext => h text
      (Text.Utf8.decode?_eq_some.mp htext)
  rw [ofBytes, hnone]

theorem load_unopened {r : Recorded σ} {e : StorageError}
    (ho : openFile r.store location .reading = (.error e, t)) :
    (load r).1 = (load r.store).1 ∧ (load r).2.store = (load r.store).2 ∧
      (load r).2.calls = ⟨.openFile, none⟩ :: r.calls := by
  have hopen : openFile r location .reading = (.error e, r.note .openFile none t) := by
    show r.issue .openFile (openFile · location .reading) = _
    simp only [Recorded.issue, ho]
  unfold load
  rw [ho, hopen]
  cases e <;> exact ⟨rfl, rfl, rfl⟩

/-- The books on a load that could: one close, after the reads and the open. -/
theorem load_recorded {r : Recorded σ} (ho : openFile r.store location .reading = (.ok f, t)) :
    (load r).1 = (load r.store).1 ∧ (load r).2.store = (load r.store).2 ∧
      ∃ m, Drains maxSize t f m (readAll t f) ∧
        (load r).2.calls = ⟨.closeFile, some r.issued⟩ ::
          (List.replicate m ⟨.read, some r.issued⟩ ++ ⟨.openFile, some r.issued⟩ :: r.calls) := by
  let r' : Recorded σ := { r.note .openFile (some r.issued) t with issued := r.issued + 1 }
  have hopen : openFile r location .reading = (.ok ⟨r.issued, f⟩, r') := by
    show r.issue .openFile (openFile · location .reading) = _
    simp only [Recorded.issue, ho]
    rfl
  obtain ⟨m, hdrains⟩ := readAll_drains r' ⟨r.issued, f⟩
  rw [load_opened ho, load_opened hopen]
  generalize readAll r' ⟨r.issued, f⟩ = out at hdrains ⊢
  obtain ⟨x, g, u⟩ := out
  obtain ⟨hplain, hnumber, hcalls⟩ := hdrains.recorded
  have hsame : readAll t f = (x, g.handle, u.store) := hplain.eq
  rw [hsame]
  refine ⟨rfl, rfl, m, hplain, ?_⟩
  show ⟨.closeFile, some g.number⟩ :: u.calls = _
  rw [hnumber, hcalls]
  rfl

/-- The outcomes of loading the settings from a store. -/
structure Loads (s : σ) : Prop where
  /-- Without a file nothing is set. -/
  missing {t : σ} : openFile s location .reading = (.error .notFound, t) → load s = (.ok {}, t)
  refused {e : StorageError} {t : σ} : openFile s location .reading = (.error e, t) →
    e ≠ .notFound → load s = (.error (.storage e), t)
  tooLarge {f : φ} {t : σ} {contents : Bytes} : openFile s location .reading = (.ok f, t) →
    Deals t f contents → maxSize < contents.length → (load s).1 = .error .tooLarge
  garbled {f : φ} {t : σ} {contents : Bytes} : openFile s location .reading = (.ok f, t) →
    Deals t f contents → contents.length ≤ maxSize →
      (∀ text : List Char, contents ≠ text.flatMap String.utf8EncodeChar) →
        (load s).1 = .error .invalidUtf8
  parsed {f : φ} {t : σ} {text : List Char} : openFile s location .reading = (.ok f, t) →
    Deals t f (text.flatMap String.utf8EncodeChar) →
      (text.flatMap String.utf8EncodeChar).length ≤ maxSize →
        (load s).1 = (parse text).mapError .parse
  /-- Keeping books changes nothing. -/
  recorded (issued : Nat) (calls : List CallRecord) :
    (load (⟨s, issued, calls⟩ : Recorded σ)).1 = (load s).1 ∧
      (load (⟨s, issued, calls⟩ : Recorded σ)).2.store = (load s).2
  unopened (issued : Nat) (calls : List CallRecord) {e : StorageError} {t : σ} :
    openFile s location .reading = (.error e, t) →
      (load (⟨s, issued, calls⟩ : Recorded σ)).2.calls = ⟨.openFile, none⟩ :: calls
  /-- On any store the reads come to an end, and the file is closed after them and not again. What
  reading fails with counts before what the close fails with. -/
  closed (issued : Nat) (calls : List CallRecord) {f : φ} {t : σ} :
    openFile s location .reading = (.ok f, t) → ∃ m ≤ maxSize + 1, ∃ x g u,
      Drains maxSize t f m (x, g, u) ∧ (load s).2 = (closeFile u g).2 ∧
      (∀ e, x = .error e → (load s).1 = .error e) ∧
      (∀ bytes e, x = .ok bytes → (closeFile u g).1 = .error e →
        (load s).1 = .error (.storage e)) ∧
      (load (⟨s, issued, calls⟩ : Recorded σ)).2.calls = ⟨.closeFile, some issued⟩ ::
        (List.replicate m ⟨.read, some issued⟩ ++ ⟨.openFile, some issued⟩ :: calls)

/-- The outcomes of loading the settings, on any store and for reads of any sizes. -/
theorem load_outcomes (s : σ) : Loads s where
  missing ho := by
    unfold load
    rw [ho]
  refused {e _} ho he := by
    unfold load
    rw [ho]
    cases e with
    | notFound => exact absurd rfl he
    | _ => rfl
  tooLarge ho h hlen := by rw [load_deals ho h, if_neg (Nat.not_le_of_lt hlen)]
  garbled ho h hlen hgarbled := by rw [load_deals ho h, if_pos hlen, ofBytes_garbled hgarbled]
  parsed ho h hlen := by rw [load_deals ho h, if_pos hlen, ofBytes_text]
  recorded issued calls := by
    let r : Recorded σ := ⟨s, issued, calls⟩
    rcases ho : openFile r.store location .reading with ⟨e | f, t⟩
    · obtain ⟨hanswer, hstore, -⟩ := load_unopened ho
      exact ⟨hanswer, hstore⟩
    · obtain ⟨hanswer, hstore, -⟩ := load_recorded ho
      exact ⟨hanswer, hstore⟩
  unopened issued calls _ _ ho := by
    let r : Recorded σ := ⟨s, issued, calls⟩
    have ho : openFile r.store location .reading = _ := ho
    exact (load_unopened ho).2.2
  closed issued calls f t ho := by
    let r : Recorded σ := ⟨s, issued, calls⟩
    have hr : openFile r.store location .reading = (.ok f, t) := ho
    obtain ⟨-, -, m, hdrains, hcalls⟩ := load_recorded hr
    refine ⟨m, hdrains.le, (readAll t f).1, (readAll t f).2.1, (readAll t f).2.2, hdrains,
      congrArg Prod.snd (load_opened ho), ?_, ?_, hcalls⟩
    · intro e he
      rw [load_opened ho, he, settle]
    · intro bytes e hbytes hclose
      rw [load_opened ho, hbytes, hclose, settle]

end Config

/-! ## A volume -/

namespace Disturbed

variable {ι : Type} [Disturbance ι] {d : Disturbed ι Volume} {f : FileHandle} {contents : Bytes}

/-- No call fails, and `rest` is what is left of the file behind the position of the handle. -/
structure Pours (d : Disturbed ι Volume) (f : FileHandle) (rest : Bytes) : Prop where
  unfailing : Disturbance.Unfailing d.disturbance
  flowing : Disturbance.Flowing d.disturbance
  good : d.store.Reads f
  left : ∃ contents, d.store.Offers f.key contents ∧ contents.length < Bytes.wordLimit ∧
    f.pos ≤ contents.length ∧ contents.drop f.pos = rest

private theorem dealing_pours :
    FileStore.Dealing (Pours : Disturbed ι Volume → FileHandle → Bytes → Prop) where
  read {d f rest n} h hn := by
    obtain ⟨contents, hoffers, hshort, hpos, rfl⟩ := h.left
    obtain ⟨hi, hv⟩ := d.read_same f n
    have hcall : FileStore.read d f n = _ :=
      callOn_unmet (h.unfailing.unmet .read) f
        fun i v f => v.read f (limited (Disturbance.readLimit i) n)
    generalize hl : limited (Disturbance.readLimit (Disturbance.meet d.disturbance .read).2) n = l
      at hcall
    have hl0 : 0 < l := hl ▸ (h.flowing.next .read).limited_pos hn
    have hle : l ≤ n := hl ▸ limited_le _ n
    obtain ⟨hbytes, hmoved⟩ := Volume.read_of_offers hoffers h.good l
    have hlength : (Volume.slice contents f.pos l).length = min l (contents.length - f.pos) := by
      rw [Volume.slice, List.length_take, List.length_drop]
    have hend : f.pos + (Volume.slice contents f.pos l).length ≤ contents.length := by omega
    have hinside : (f.pos + (Volume.slice contents f.pos l).length) % Bytes.wordLimit =
        f.pos + (Volume.slice contents f.pos l).length := Nat.mod_eq_of_lt (by omega)
    rw [hcall] at hi hv ⊢
    rw [hbytes, hmoved, hinside]
    refine ⟨_, _, _, _, rfl, Volume.drop_eq_slice_append contents f.pos l, by omega,
      fun hnil => Volume.drop_of_slice_eq_nil hnil hl0, ?_⟩
    exact {
      unfailing := h.unfailing.next .read
      flowing := h.flowing.next .read
      good := ⟨h.good.generation.trans hv.generation.symm, h.good.flags,
        hv.readFault ▸ h.good.readFault⟩
      left := ⟨contents, hv.offers hoffers, hshort, hend, rfl⟩ }
  close {d f rest} h := by
    obtain ⟨contents, hoffers, -⟩ := h.left
    have hcall : FileStore.closeFile d f = _ :=
      call_unmet (h.unfailing.unmet .closeFile) fun v => v.closeFile f
    rw [hcall, Volume.closeFile_of_offers hoffers h.good.generation]

end Disturbed

/-- Without failures a file that ends before the last position is loaded as a whole, however its
reads are cut. -/
theorem Config.load_volume {ι : Type} [Disturbance ι] {d : Disturbed ι Volume} {k : Key}
    {contents : Bytes} (hk : Volume.key location = .ok k) (ho : d.store.Offers k contents)
    (hshort : contents.length < Bytes.wordLimit) (hfault : d.store.readFault ≠ some k)
    (hi : Disturbance.Unfailing d.disturbance) (hflow : Disturbance.Flowing d.disturbance) :
    (load d).1 = if contents.length ≤ maxSize then ofBytes contents else .error .tooLarge := by
  have hopen : FileStore.openFile d location .reading = _ :=
    Disturbed.call_unmet (hi.unmet .openFile) fun v => v.openFile location .reading
  rw [Volume.openFile_of_offers ho hk] at hopen
  refine load_deals hopen ⟨Disturbed.Pours, Disturbed.dealing_pours, ?_⟩
  exact {
    unfailing := hi.next .openFile
    flowing := hflow.next .openFile
    good := ⟨rfl, rfl, hfault⟩
    left := ⟨contents, ho, hshort, Nat.zero_le _, rfl⟩ }

/-- The same with reads that are cut at a fixed length. -/
theorem Config.load_cut {m : Mishap} {v : Volume} {k : Key} {contents : Bytes}
    (hk : Volume.key location = .ok k) (ho : v.Offers k contents)
    (hshort : contents.length < Bytes.wordLimit) (hfault : v.readFault ≠ some k)
    (hm : m.fault = none) (hcut : m.readLimit ≠ some 0) :
    (load (⟨m, v⟩ : Disturbed Mishap Volume)).1 =
      if contents.length ≤ maxSize then ofBytes contents else .error .tooLarge :=
  load_volume hk ho hshort hfault (Disturbance.unfailing_mishap hm)
    (Disturbance.flowing_mishap hcut)

/-- Byte by byte, with a character of two bytes in a comment. -/
example :
    let contents := Bytes.ofText "[display]\nfps = 30 # é"
    let v := (Volume.fresh 512 8).put [Bytes.ofText "module.toml"] (.file contents)
    (Config.load (⟨{ readLimit := some 1 }, v⟩ : Disturbed Mishap Volume)).1 =
      .ok { fps := 30 } := by
  decide +kernel

end PanelLink
