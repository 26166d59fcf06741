import PanelLink.Wire.Packet

/-! Encoding and decoding of request packets: inverse to each other, up to the zeros of a report. -/
namespace PanelLink

namespace Command

private theorem map_code_all : all.map (·.code.toNat) = List.range' baseCode.toNat all.length := by
  decide

/-- A byte is read as a command only if it is the code of that command. -/
theorem code_of_ofCode? {b : UInt8} {c : Command} (h : ofCode? b = some c) : c.code = b := by
  unfold ofCode? at h
  split at h
  · rename_i hb
    have hle : baseCode.toNat ≤ b.toNat := hb
    have hm : (all.map (·.code.toNat))[b.toNat - baseCode.toNat]? = some c.code.toNat := by
      rw [List.getElem?_map, h, Option.map_some]
    obtain ⟨_, hat⟩ := List.getElem?_eq_some_iff.mp (map_code_all ▸ hm)
    rw [List.getElem_range'] at hat
    apply UInt8.toNat_inj.mp
    omega
  · cases h

theorem ofCode?_eq_none_iff {b : UInt8} : ofCode? b = none ↔ ∀ c : Command, c.code ≠ b := by
  constructor
  · intro h c hc
    rw [← hc, ofCode?_code] at h
    cases h
  · intro h
    apply Option.eq_none_iff_forall_ne_some.mpr
    intro c hc
    exact h c (code_of_ofCode? hc)

end Command

namespace Packet

/-- The length is at least that of a header and at most that of a report. -/
def Fits (bytes : Bytes) : Prop :=
  headerSize ≤ bytes.length ∧ bytes.length ≤ reportSize

theorem Fits.eq_cons {bytes : Bytes} (h : Fits bytes) :
    ∃ m c i j k l payload, bytes = m :: c :: i :: j :: k :: l :: payload := by
  match bytes, h with
  | m :: c :: i :: j :: k :: l :: payload, _ => exact ⟨m, c, i, j, k, l, payload, rfl⟩

theorem decode_of_not_fits {bytes : Bytes} (h : ¬ Fits bytes) :
    decode bytes = .error (.badLength bytes.length) := by
  unfold decode
  split
  · rename_i m c i j k l payload
    have hheader : headerSize ≤ (m :: c :: i :: j :: k :: l :: payload).length := by
      simp only [List.length_cons, headerSize]
      omega
    have hlong : reportSize < (m :: c :: i :: j :: k :: l :: payload).length := by
      apply Nat.lt_of_not_le
      intro hshort
      exact h ⟨hheader, hshort⟩
    rw [if_pos hlong]
  · rfl

/-- Once the length is right, the magic is looked at first and the command after it. -/
theorem decode_cons {m c i j k l : UInt8} {payload : Bytes}
    (h : Fits (m :: c :: i :: j :: k :: l :: payload)) :
    decode (m :: c :: i :: j :: k :: l :: payload) =
      if m ≠ magic then .error (.invalidMagic m)
      else
        match Command.ofCode? c with
        | none => .error (.unknownCommand c)
        | some command => .ok ⟨command, Bytes.toWord i j k l, payload⟩ := by
  have hlen : ¬ reportSize < (m :: c :: i :: j :: k :: l :: payload).length := Nat.not_lt.mpr h.2
  exact if_neg hlen

private theorem header_append (p : Packet) (rest : Bytes) :
    p.header ++ rest =
      magic :: p.command.code :: UInt8.ofNat p.id.toNat :: UInt8.ofNat (p.id.toNat / 0x100) ::
        UInt8.ofNat (p.id.toNat / 0x10000) :: UInt8.ofNat (p.id.toNat / 0x1000000) :: rest := rfl

theorem fits_header_append (p : Packet) {rest : Bytes} :
    Fits (p.header ++ rest) ↔ rest.length ≤ maxPayload := by
  simp only [Fits, List.length_append, length_header, maxPayload, headerSize, reportSize]
  omega

theorem decode_header_append (p : Packet) {rest : Bytes} (h : rest.length ≤ maxPayload) :
    decode (p.header ++ rest) = .ok { p with payload := rest } := by
  have hfits : Fits (p.header ++ rest) := (fits_header_append p).mpr h
  rw [header_append] at hfits ⊢
  rw [decode_cons hfits]
  simp only [ne_eq, not_true_eq_false, if_false, Command.ofCode?_code, Bytes.toWord_ofWord]

/-- The zeros of a report continue the payload. -/
theorem padTo_frame (p : Packet) :
    p.frame.padTo reportSize = p.header ++ p.payload.padTo maxPayload := by
  have hn : reportSize - p.frame.length = maxPayload - p.payload.length := by
    rw [length_frame, maxPayload]
    omega
  rw [Bytes.padTo, hn, frame, List.append_assoc, Bytes.padTo]

/-- Only its own frame decodes to a packet. -/
theorem eq_frame_of_decode {bytes : Bytes} {p : Packet} (h : decode bytes = .ok p) :
    bytes = p.frame ∧ p.payload.length ≤ maxPayload := by
  by_cases hfits : Fits bytes
  · obtain ⟨m, c, i, j, k, l, payload, rfl⟩ := hfits.eq_cons
    rw [decode_cons hfits] at h
    split at h
    · cases h
    rename_i hmagic
    split at h
    · cases h
    rename_i command hcommand
    cases h
    have hframe : m :: c :: i :: j :: k :: l :: payload =
        frame ⟨command, Bytes.toWord i j k l, payload⟩ := by
      simp only [frame, header, Command.code_of_ofCode? hcommand, Bytes.ofWord_toWord,
        Decidable.not_not.mp hmagic, List.cons_append, List.nil_append]
    constructor
    · exact hframe
    · rw [hframe] at hfits
      exact (fits_header_append _).mp hfits
  · rw [decode_of_not_fits hfits] at h
    cases h

theorem encode_of_le {p : Packet} (h : p.payload.length ≤ maxPayload) (report : Bytes) :
    p.encode report = (.ok p.frame.length, p.frame.padTo reportSize) := by
  simp only [encode, if_neg (Nat.not_lt.mpr h)]

private theorem decode_isOk_iff {bytes : Bytes} :
    (∃ p, decode bytes = .ok p) ↔
      Fits bytes ∧ ∃ command : Command, ∃ rest, bytes = magic :: command.code :: rest := by
  constructor
  · rintro ⟨p, h⟩
    obtain ⟨rfl, hp⟩ := eq_frame_of_decode h
    constructor
    · exact (fits_header_append p).mpr hp
    · exact ⟨p.command, Bytes.ofWord p.id ++ p.payload, rfl⟩
  · rintro ⟨hfits, command, rest, rfl⟩
    obtain ⟨m, c, i, j, k, l, payload, hcons⟩ := hfits.eq_cons
    obtain ⟨rfl, rfl, rfl⟩ : magic = m ∧ command.code = c ∧ rest = i :: j :: k :: l :: payload := by
      simpa only [List.cons.injEq] using hcons
    rw [decode_cons hfits]
    simp only [ne_eq, not_true_eq_false, if_false, Command.ofCode?_code, Except.ok.injEq,
      exists_eq']

/-- The error is that of the first check that fails: length, then magic, then command. -/
theorem decode_eq_error_iff {bytes : Bytes} {e : PacketError} :
    decode bytes = .error e ↔
      ¬ Fits bytes ∧ e = .badLength bytes.length ∨
      Fits bytes ∧ (∃ m rest, bytes = m :: rest ∧ m ≠ magic ∧ e = .invalidMagic m) ∨
      Fits bytes ∧ (∃ c rest, bytes = magic :: c :: rest ∧ (∀ command : Command, command.code ≠ c) ∧
        e = .unknownCommand c) := by
  by_cases hfits : Fits bytes
  · obtain ⟨m, c, i, j, k, l, payload, rfl⟩ := hfits.eq_cons
    simp only [decode_cons hfits, ← Command.ofCode?_eq_none_iff]
    by_cases hm : m = magic
    · subst hm
      cases hc : Command.ofCode? c with
      | none =>
        simp [hfits, hc, eq_comm]
      | some command =>
        simp [hfits, hc]
    · simp [hfits, hm, eq_comm]
  · rw [decode_of_not_fits hfits]
    simp [hfits, eq_comm]

/-- Encoding a payload that fits can be undone, with the zeros of the report or without them, and
whatever stood in the report before; decoding takes nothing else and can be undone as well. -/
theorem codec (p : Packet) (report bytes : Bytes) :
    (p.payload.length ≤ maxPayload → ∃ sent,
      p.encode report = (.ok (headerSize + p.payload.length), sent) ∧ sent.length = reportSize ∧
      decode (sent.take (headerSize + p.payload.length)) = .ok p ∧
      decode sent = .ok { p with payload := p.payload.padTo maxPayload }) ∧
    (maxPayload < p.payload.length → p.encode report = (.error .payloadTooLarge, report)) ∧
    ((∃ q, decode bytes = .ok q) ↔
      Fits bytes ∧ ∃ command : Command, ∃ rest, bytes = magic :: command.code :: rest) ∧
    (decode bytes = .ok p → p.encode report = (.ok bytes.length, bytes.padTo reportSize)) ∧
    (∀ e, decode bytes = .error e ↔
      ¬ Fits bytes ∧ e = .badLength bytes.length ∨
      Fits bytes ∧ (∃ m rest, bytes = m :: rest ∧ m ≠ magic ∧ e = .invalidMagic m) ∨
      Fits bytes ∧ (∃ c rest, bytes = magic :: c :: rest ∧ (∀ command : Command, command.code ≠ c) ∧
        e = .unknownCommand c)) := by
  refine ⟨?short, ?long, decode_isOk_iff, ?again, fun e => decode_eq_error_iff⟩
  case short =>
    intro h
    have hpadded : (p.payload.padTo maxPayload).length ≤ maxPayload := by
      rw [Bytes.length_padTo]
      omega
    have htake : (p.frame.padTo reportSize).take (headerSize + p.payload.length) = p.frame := by
      rw [← length_frame, Bytes.padTo, List.take_left]
    have hlength : (p.frame.padTo reportSize).length = reportSize := by
      rw [Bytes.length_padTo, length_frame]
      simp only [maxPayload, headerSize, reportSize] at *
      omega
    have hencode := encode_of_le h report
    rw [length_frame] at hencode
    refine ⟨p.frame.padTo reportSize, hencode, hlength, ?_, ?_⟩
    · rw [htake]
      exact decode_header_append p h
    · rw [padTo_frame]
      exact decode_header_append p hpadded
  case long =>
    intro h
    simp only [encode, if_pos h]
  case again =>
    intro h
    obtain ⟨rfl, hp⟩ := eq_frame_of_decode h
    exact encode_of_le hp report

theorem codec_cat :
    (∃ sent,
      encode ⟨.cat, 0x12345678, [0x61, 0x62]⟩ (List.replicate reportSize 0xFF) = (.ok 8, sent) ∧
      sent.length = reportSize ∧
      decode (sent.take 8) = .ok ⟨.cat, 0x12345678, [0x61, 0x62]⟩ ∧
      decode sent = .ok ⟨.cat, 0x12345678, [0x61, 0x62] ++ List.replicate 24 0⟩) ∧
    encode ⟨.cat, 0x12345678, [0x61, 0x62]⟩ (List.replicate reportSize 0xFF) =
      (.ok 8, [0x09, 0x56, 0x78, 0x56, 0x34, 0x12, 0x61, 0x62] ++ List.replicate 24 0) ∧
    encode ⟨.cat, 0, List.replicate 27 0⟩ [0xFF] = (.error .payloadTooLarge, [0xFF]) := by
  have h := codec ⟨.cat, 0x12345678, [0x61, 0x62]⟩ (List.replicate reportSize 0xFF)
    [0x09, 0x56, 0x78, 0x56, 0x34, 0x12, 0x61, 0x62]
  have hlong := codec ⟨.cat, 0, List.replicate 27 0⟩ [0xFF] []
  refine ⟨?_, ?_, ?_⟩
  · exact h.1 (by decide)
  · exact h.2.2.2.1 rfl
  · exact hlong.2.1 (by decide)

end Packet

end PanelLink
