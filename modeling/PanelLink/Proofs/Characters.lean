import PanelLink.Text.Utf8

/-! A byte string is read as a text exactly if the text is written so in UTF-8. -/
namespace PanelLink.Text.Utf8

variable {a b c d : UInt8} {ch : Char} {low high code : Nat}

theorem toNat_ofNat {n : Nat} (h : n.isValidChar) : (Char.ofNat n).toNat = n := by
  rw [Char.ofNat, dif_pos h]
  rfl

theorem charWithin_eq_some :
    charWithin low high code = some ch ↔ low ≤ code ∧ code ≤ high ∧ ch.toNat = code := by
  unfold charWithin
  constructor
  · intro h
    split at h
    · rename_i hcode
      obtain ⟨hlow, hhigh, hvalid⟩ := hcode
      obtain rfl := Option.some.inj h
      exact ⟨hlow, hhigh, toNat_ofNat hvalid⟩
    · cases h
  · rintro ⟨hlow, hhigh, rfl⟩
    rw [if_pos ⟨hlow, hhigh, ch.valid⟩, Char.ofNat_toNat]

theorem isTail_iff : isTail b = true ↔ 0x80 ≤ b.toNat ∧ b.toNat ≤ 0xBF := by
  simp only [isTail, Bool.and_eq_true, decide_eq_true_eq, UInt8.le_iff_toNat_le]
  rfl

/-- The byte that a number below 256 stands for. -/
theorem ofNat_eq_iff {n : Nat} (hn : n < 256) : UInt8.ofNat n = a ↔ n = a.toNat := by
  rw [← UInt8.toNat_inj, UInt8.toNat_ofNat', Nat.mod_eq_of_lt hn]

theorem encode_one (h : ch.toNat ≤ 0x7F) :
    String.utf8EncodeChar ch = [a] ↔ ch.toNat = a.toNat := by
  have hone : String.utf8EncodeChar ch = [UInt8.ofNat ch.toNat] := if_pos h
  rw [hone, List.singleton_inj, ofNat_eq_iff (by omega)]

theorem encode_two (hlow : 0x80 ≤ ch.toNat) (hhigh : ch.toNat ≤ 0x7FF) :
    String.utf8EncodeChar ch = [a, b] ↔
      a.toNat = ch.toNat / 64 + 0xC0 ∧ b.toNat = ch.toNat % 64 + 0x80 := by
  have htwo : String.utf8EncodeChar ch =
      [UInt8.ofNat (ch.toNat / 64 % 32 + 192), UInt8.ofNat (ch.toNat % 64 + 128)] := by
    rw [String.utf8EncodeChar, Char.toNat_val]
    rw [if_neg (by omega), if_pos hhigh]
  rw [htwo, List.cons.injEq, List.singleton_inj, ofNat_eq_iff (by omega), ofNat_eq_iff (by omega)]
  omega

theorem encode_three (hlow : 0x800 ≤ ch.toNat) (hhigh : ch.toNat ≤ 0xFFFF) :
    String.utf8EncodeChar ch = [a, b, c] ↔ a.toNat = ch.toNat / 4096 + 0xE0 ∧
      b.toNat = ch.toNat / 64 % 64 + 0x80 ∧ c.toNat = ch.toNat % 64 + 0x80 := by
  have hthree : String.utf8EncodeChar ch = [UInt8.ofNat (ch.toNat / 4096 % 16 + 224),
      UInt8.ofNat (ch.toNat / 64 % 64 + 128), UInt8.ofNat (ch.toNat % 64 + 128)] := by
    rw [String.utf8EncodeChar, Char.toNat_val]
    rw [if_neg (by omega), if_neg (by omega), if_pos hhigh]
  rw [hthree, List.cons.injEq, List.cons.injEq, List.singleton_inj, ofNat_eq_iff (by omega),
    ofNat_eq_iff (by omega), ofNat_eq_iff (by omega)]
  omega

theorem encode_four (hlow : 0x10000 ≤ ch.toNat) :
    String.utf8EncodeChar ch = [a, b, c, d] ↔ a.toNat = ch.toNat / 262144 + 0xF0 ∧
      b.toNat = ch.toNat / 4096 % 64 + 0x80 ∧ c.toNat = ch.toNat / 64 % 64 + 0x80 ∧
      d.toNat = ch.toNat % 64 + 0x80 := by
  have hvalid : ch.toNat < 0xD800 ∨ 0xDFFF < ch.toNat ∧ ch.toNat < 0x110000 := ch.valid
  have hfour : String.utf8EncodeChar ch = [UInt8.ofNat (ch.toNat / 262144 % 8 + 240),
      UInt8.ofNat (ch.toNat / 4096 % 64 + 128), UInt8.ofNat (ch.toNat / 64 % 64 + 128),
      UInt8.ofNat (ch.toNat % 64 + 128)] := by
    rw [String.utf8EncodeChar, Char.toNat_val]
    rw [if_neg (by omega), if_neg (by omega), if_neg (by omega)]
  rw [hfour, List.cons.injEq, List.cons.injEq, List.cons.injEq, List.singleton_inj,
    ofNat_eq_iff (by omega), ofNat_eq_iff (by omega), ofNat_eq_iff (by omega),
    ofNat_eq_iff (by omega)]
  omega

theorem pair_eq_some : pair a b = some ch ↔
    (0x80 ≤ ch.toNat ∧ ch.toNat ≤ 0x7FF) ∧ String.utf8EncodeChar ch = [a, b] := by
  have hlead : (0xC0 ≤ a ∧ a ≤ 0xDF ∧ isTail b = true) ↔
      0xC0 ≤ a.toNat ∧ a.toNat ≤ 0xDF ∧ 0x80 ≤ b.toNat ∧ b.toNat ≤ 0xBF := by
    rw [isTail_iff, UInt8.le_iff_toNat_le, UInt8.le_iff_toNat_le]
    rfl
  unfold pair tailBits
  constructor
  · intro h
    split at h
    · rename_i hab
      have hab := hlead.mp hab
      obtain ⟨hlow, hhigh, hch⟩ := charWithin_eq_some.mp h
      have hrange : 0x80 ≤ ch.toNat ∧ ch.toNat ≤ 0x7FF := by omega
      exact ⟨hrange, (encode_two hrange.1 hrange.2).mpr (by omega)⟩
    · cases h
  · rintro ⟨hrange, h⟩
    have hbytes := (encode_two hrange.1 hrange.2).mp h
    rw [if_pos (hlead.mpr (by omega))]
    exact charWithin_eq_some.mpr (by omega)

theorem triple_eq_some : triple a b c = some ch ↔
    (0x800 ≤ ch.toNat ∧ ch.toNat ≤ 0xFFFF) ∧ String.utf8EncodeChar ch = [a, b, c] := by
  have hlead : (0xE0 ≤ a ∧ a ≤ 0xEF ∧ isTail b = true ∧ isTail c = true) ↔
      0xE0 ≤ a.toNat ∧ a.toNat ≤ 0xEF ∧ (0x80 ≤ b.toNat ∧ b.toNat ≤ 0xBF) ∧
        0x80 ≤ c.toNat ∧ c.toNat ≤ 0xBF := by
    rw [isTail_iff, isTail_iff, UInt8.le_iff_toNat_le, UInt8.le_iff_toNat_le]
    rfl
  unfold triple tailBits
  constructor
  · intro h
    split at h
    · rename_i habc
      have habc := hlead.mp habc
      obtain ⟨hlow, hhigh, hch⟩ := charWithin_eq_some.mp h
      have hrange : 0x800 ≤ ch.toNat ∧ ch.toNat ≤ 0xFFFF := by omega
      exact ⟨hrange, (encode_three hrange.1 hrange.2).mpr (by omega)⟩
    · cases h
  · rintro ⟨hrange, h⟩
    have hbytes := (encode_three hrange.1 hrange.2).mp h
    rw [if_pos (hlead.mpr (by omega))]
    exact charWithin_eq_some.mpr (by omega)

theorem quadruple_eq_some : quadruple a b c d = some ch ↔
    0x10000 ≤ ch.toNat ∧ String.utf8EncodeChar ch = [a, b, c, d] := by
  have hvalid : ch.toNat < 0xD800 ∨ 0xDFFF < ch.toNat ∧ ch.toNat < 0x110000 := ch.valid
  have hlead : (0xF0 ≤ a ∧ a ≤ 0xF7 ∧ isTail b = true ∧ isTail c = true ∧ isTail d = true) ↔
      0xF0 ≤ a.toNat ∧ a.toNat ≤ 0xF7 ∧ (0x80 ≤ b.toNat ∧ b.toNat ≤ 0xBF) ∧
        (0x80 ≤ c.toNat ∧ c.toNat ≤ 0xBF) ∧ 0x80 ≤ d.toNat ∧ d.toNat ≤ 0xBF := by
    rw [isTail_iff, isTail_iff, isTail_iff, UInt8.le_iff_toNat_le, UInt8.le_iff_toNat_le]
    rfl
  unfold quadruple tailBits
  constructor
  · intro h
    split at h
    · rename_i habcd
      have habcd := hlead.mp habcd
      obtain ⟨hlow, hhigh, hch⟩ := charWithin_eq_some.mp h
      have hrange : 0x10000 ≤ ch.toNat := by omega
      exact ⟨hrange, (encode_four hrange).mpr (by omega)⟩
    · cases h
  · rintro ⟨hrange, h⟩
    have hbytes := (encode_four hrange).mp h
    rw [if_pos (hlead.mpr (by omega))]
    exact charWithin_eq_some.mpr (by omega)

private theorem pair_eq_none (h : 0xE0 ≤ a.toNat) : pair a b = none := by
  rw [Option.eq_none_iff_forall_ne_some]
  intro ch hch
  obtain ⟨⟨hlow, hhigh⟩, hbytes⟩ := pair_eq_some.mp hch
  have hfirst := ((encode_two hlow hhigh).mp hbytes).1
  omega

private theorem triple_eq_none (h : 0xF0 ≤ a.toNat) : triple a b c = none := by
  rw [Option.eq_none_iff_forall_ne_some]
  intro ch hch
  obtain ⟨⟨hlow, hhigh⟩, hbytes⟩ := triple_eq_some.mp hch
  have hfirst := ((encode_three hlow hhigh).mp hbytes).1
  omega

/-- A character in front of a text. -/
theorem decode?_encode (ch : Char) (rest : Bytes) :
    decode? (String.utf8EncodeChar ch ++ rest) = (decode? rest).map (ch :: ·) := by
  have hvalid : ch.toNat < 0xD800 ∨ 0xDFFF < ch.toNat ∧ ch.toNat < 0x110000 := ch.valid
  have hbyte {n : Nat} (hn : n < 256) : (UInt8.ofNat n).toNat = n := by
    rw [UInt8.toNat_ofNat', Nat.mod_eq_of_lt hn]
  have hlong {a : UInt8} (ha : 0xC0 ≤ a.toNat) : ¬a < 0x80 := by
    rw [UInt8.lt_iff_toNat_lt]
    exact Nat.not_lt.mpr (Nat.le_trans (by decide) ha)
  -- By the number of bytes. The first byte of a longer character rules the shorter ones out.
  by_cases hone : ch.toNat ≤ 0x7F
  · have hencode : String.utf8EncodeChar ch = [UInt8.ofNat ch.toNat] :=
      (encode_one hone).mpr (hbyte (by omega)).symm
    have hshort : UInt8.ofNat ch.toNat < 0x80 := by
      rw [UInt8.lt_iff_toNat_lt, hbyte (by omega)]
      exact Nat.lt_succ_of_le hone
    rw [hencode, List.singleton_append, decode?.eq_def]
    dsimp only
    rw [if_pos hshort, hbyte (by omega), Char.ofNat_toNat]
  by_cases htwo : ch.toNat ≤ 0x7FF
  · obtain ⟨a, b, hencode⟩ : ∃ a b, String.utf8EncodeChar ch = [a, b] :=
      ⟨_, _, (encode_two (by omega) htwo).mpr ⟨hbyte (by omega), hbyte (by omega)⟩⟩
    have hbytes := (encode_two (by omega) htwo).mp hencode
    have hpair : pair a b = some ch := pair_eq_some.mpr ⟨by omega, hencode⟩
    rw [hencode, List.cons_append, List.singleton_append, decode?.eq_def]
    dsimp only
    rw [if_neg (hlong (by omega)), hpair]
  by_cases hthree : ch.toNat ≤ 0xFFFF
  · obtain ⟨a, b, c, hencode⟩ : ∃ a b c, String.utf8EncodeChar ch = [a, b, c] :=
      ⟨_, _, _, (encode_three (by omega) hthree).mpr
        ⟨hbyte (by omega), hbyte (by omega), hbyte (by omega)⟩⟩
    have hbytes := (encode_three (by omega) hthree).mp hencode
    have htriple : triple a b c = some ch := triple_eq_some.mpr ⟨by omega, hencode⟩
    rw [hencode, List.cons_append, List.cons_append, List.singleton_append, decode?.eq_def]
    dsimp only
    rw [if_neg (hlong (by omega)), pair_eq_none (by omega), htriple]
  · obtain ⟨a, b, c, d, hencode⟩ : ∃ a b c d, String.utf8EncodeChar ch = [a, b, c, d] :=
      ⟨_, _, _, _, (encode_four (by omega)).mpr
        ⟨hbyte (by omega), hbyte (by omega), hbyte (by omega), hbyte (by omega)⟩⟩
    have hbytes := (encode_four (by omega)).mp hencode
    have hquadruple : quadruple a b c d = some ch := quadruple_eq_some.mpr ⟨by omega, hencode⟩
    rw [hencode, List.cons_append, List.cons_append, List.cons_append, List.singleton_append,
      decode?.eq_def]
    dsimp only
    rw [if_neg (hlong (by omega)), pair_eq_none (by omega), triple_eq_none (by omega), hquadruple]

theorem encode_of_decode? {bytes : Bytes} {text : List Char} (h : decode? bytes = some text) :
    text.flatMap String.utf8EncodeChar = bytes := by
  -- Each case of the reader gives one character in front of a text that is shorter.
  have hcons {ch : Char} {first rest : Bytes} {text : List Char}
      (hch : String.utf8EncodeChar ch = first)
      (ih : ∀ {text}, decode? rest = some text → text.flatMap String.utf8EncodeChar = rest)
      (h : (decode? rest).map (ch :: ·) = some text) :
      text.flatMap String.utf8EncodeChar = first ++ rest := by
    obtain ⟨text, htext, rfl⟩ := Option.map_eq_some_iff.mp h
    rw [List.flatMap_cons, hch, ih htext]
  fun_induction decode? bytes generalizing text with
  | case1 =>
    obtain rfl := Option.some.inj h
    rfl
  | case2 a rest ha ih =>
    have ha : a.toNat < 0x80 := UInt8.lt_iff_toNat_lt.mp ha
    have hchar : (Char.ofNat a.toNat).toNat = a.toNat := toNat_ofNat (.inl (by omega))
    exact hcons ((encode_one (by omega)).mpr hchar) ih h
  | case4 a _ b rest ch hpair ih => exact hcons (pair_eq_some.mp hpair).2 ih h
  | case6 a _ b _ c rest ch htriple ih => exact hcons (triple_eq_some.mp htriple).2 ih h
  | case8 a _ b _ c _ d rest ch hquadruple ih =>
      exact hcons (quadruple_eq_some.mp hquadruple).2 ih h
  | _ => cases h

theorem decode?_eq_some {bytes : Bytes} {text : List Char} :
    decode? bytes = some text ↔ bytes = text.flatMap String.utf8EncodeChar := by
  constructor
  · exact fun h => (encode_of_decode? h).symm
  · rintro rfl
    induction text with
    | nil => rfl
    | cons ch text ih => rw [List.flatMap_cons, decode?_encode, ih, Option.map_some]

end PanelLink.Text.Utf8
