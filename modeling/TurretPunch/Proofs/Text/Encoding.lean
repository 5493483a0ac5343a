import TurretPunch.Text.Utf8

namespace TurretPunch.Text

/-!
# Encoding and decoding

What is decoded from the encoding of a text is the text, whatever its characters are.
-/

variable {a b c d : UInt8} {rest : List UInt8}

theorem isContinuation_iff : isContinuation b = true ↔ 0x80 ≤ b.toNat ∧ b.toNat < 0xC0 := by
  simp [isContinuation, UInt8.le_iff_toNat_le, UInt8.lt_iff_toNat_lt]

theorem isSecond_iff : isSecond a b = true ↔
    (0x80 ≤ b.toNat ∧ b.toNat < 0xC0) ∧ (a.toNat = 0xE0 → 0xA0 ≤ b.toNat) ∧
      (a.toNat = 0xED → b.toNat < 0xA0) ∧ (a.toNat = 0xF0 → 0x90 ≤ b.toNat) ∧
      (a.toNat = 0xF4 → b.toNat < 0x90) := by
  unfold isSecond
  rw [Bool.and_eq_true, isContinuation_iff]
  refine and_congr_right fun _ => ?_
  simp only [UInt8.le_iff_toNat_le, UInt8.lt_iff_toNat_lt, ← UInt8.toNat_inj, UInt8.reduceToNat]
  split
  · simp_all
  · split
    · simp_all
    · split
      · simp_all
      · split <;> simp_all

theorem decodeChar_one (ha : a.toNat < 0x80) :
    decodeChar a rest = .char (Char.ofNat a.toNat) 1 rest := by
  rw [decodeChar.eq_def, if_pos (UInt8.lt_iff_toNat_lt.mpr ha)]

/-- A byte that starts a character of several bytes. -/
theorem starts_several (ha : 0xC2 ≤ a.toNat) (ha' : a.toNat < 0xF5) :
    ¬ a < 0x80 ∧ ¬ (a < 0xC2 ∨ 0xF5 ≤ a) := by
  simp only [UInt8.lt_iff_toNat_lt, UInt8.le_iff_toNat_le, UInt8.reduceToNat]
  omega

theorem decodeChar_two (ha : 0xC2 ≤ a.toNat) (ha' : a.toNat < 0xE0) (hb : isSecond a b = true) :
    decodeChar a (b :: rest) = .char (Char.ofNat (a.toNat % 32 * 64 + payload b)) 2 rest := by
  obtain ⟨hlarge, hstart⟩ := starts_several ha (Nat.lt_trans ha' (by decide))
  have hshort : a < 0xE0 := UInt8.lt_iff_toNat_lt.mpr ha'
  rw [decodeChar.eq_def, if_neg hlarge, if_neg hstart]
  simp [hb, hshort]

theorem decodeChar_three (ha : 0xE0 ≤ a.toNat) (ha' : a.toNat < 0xF0) (hb : isSecond a b = true)
    (hc : isContinuation c = true) :
    decodeChar a (b :: c :: rest) =
      .char (Char.ofNat ((a.toNat % 16 * 64 + payload b) * 64 + payload c)) 3 rest := by
  obtain ⟨hlarge, hstart⟩ :=
    starts_several (Nat.le_trans (by decide) ha) (Nat.lt_trans ha' (by decide))
  have hlong : ¬ a < 0xE0 := mt UInt8.lt_iff_toNat_lt.mp (Nat.not_lt.mpr ha)
  have hshort : a < 0xF0 := UInt8.lt_iff_toNat_lt.mpr ha'
  rw [decodeChar.eq_def, if_neg hlarge, if_neg hstart]
  simp [hb, hc, hlong, hshort]

theorem decodeChar_four (ha : 0xF0 ≤ a.toNat) (ha' : a.toNat < 0xF5) (hb : isSecond a b = true)
    (hc : isContinuation c = true) (hd : isContinuation d = true) :
    decodeChar a (b :: c :: d :: rest) =
      .char (Char.ofNat (((a.toNat % 8 * 64 + payload b) * 64 + payload c) * 64 + payload d)) 4
        rest := by
  obtain ⟨hlarge, hstart⟩ := starts_several (Nat.le_trans (by decide) ha) ha'
  have hlong : ¬ a < 0xE0 := mt UInt8.lt_iff_toNat_lt.mp (Nat.not_lt.mpr (Nat.le_trans (by decide) ha))
  have hlonger : ¬ a < 0xF0 := mt UInt8.lt_iff_toNat_lt.mp (Nat.not_lt.mpr ha)
  rw [decodeChar.eq_def, if_neg hlarge, if_neg hstart]
  simp [hb, hc, hd, hlong, hlonger]

theorem toNat_ofNat_of_lt {n : Nat} (h : n < 256) : (UInt8.ofNat n).toNat = n := by
  rw [UInt8.toNat_ofNat']
  exact Nat.mod_eq_of_lt h

/-- A byte that carries six bits of a number. -/
theorem isContinuation_ofNat (n : Nat) : isContinuation (UInt8.ofNat (n % 64 + 0x80)) = true := by
  rw [isContinuation_iff, toNat_ofNat_of_lt (by omega)]
  omega

theorem payload_ofNat (n : Nat) : payload (UInt8.ofNat (n % 64 + 0x80)) = n % 64 := by
  rw [payload, toNat_ofNat_of_lt (by omega)]
  omega

theorem decodeChar_twoBytes {v : Nat} (hlow : 0x7F < v) (hhigh : v ≤ 0x7FF) :
    decodeChar (UInt8.ofNat (v / 64 % 0x20 + 0xC0)) (UInt8.ofNat (v % 64 + 0x80) :: rest) =
      .char (Char.ofNat v) 2 rest := by
  have ha : (UInt8.ofNat (v / 64 % 0x20 + 0xC0)).toNat = v / 64 % 0x20 + 0xC0 :=
    toNat_ofNat_of_lt (by omega)
  have hb := isContinuation_iff.mp (isContinuation_ofNat v)
  have hsecond : isSecond (UInt8.ofNat (v / 64 % 0x20 + 0xC0)) (UInt8.ofNat (v % 64 + 0x80)) = true := by
    rw [isSecond_iff]
    omega
  have hvalue : (v / 64 % 32 + 192) % 32 * 64 + v % 64 = v := by omega
  rw [decodeChar_two (by omega) (by omega) hsecond, ha, payload_ofNat, hvalue]

theorem decodeChar_threeBytes {v : Nat} (hlow : 0x7FF < v) (hhigh : v ≤ 0xFFFF)
    (hvalid : v < 0xD800 ∨ 0xDFFF < v) :
    decodeChar (UInt8.ofNat (v / 4096 % 0x10 + 0xE0))
        (UInt8.ofNat (v / 64 % 64 + 0x80) :: UInt8.ofNat (v % 64 + 0x80) :: rest) =
      .char (Char.ofNat v) 3 rest := by
  have ha : (UInt8.ofNat (v / 4096 % 0x10 + 0xE0)).toNat = v / 4096 % 0x10 + 0xE0 :=
    toNat_ofNat_of_lt (by omega)
  have hb : (UInt8.ofNat (v / 64 % 64 + 0x80)).toNat = v / 64 % 64 + 0x80 :=
    toNat_ofNat_of_lt (by omega)
  have hsecond : isSecond (UInt8.ofNat (v / 4096 % 0x10 + 0xE0))
      (UInt8.ofNat (v / 64 % 64 + 0x80)) = true := by
    rw [isSecond_iff, ha, hb]
    omega
  have hvalue : ((v / 4096 % 16 + 224) % 16 * 64 + v / 64 % 64) * 64 + v % 64 = v := by omega
  rw [decodeChar_three (by omega) (by omega) hsecond (isContinuation_ofNat v), ha, payload_ofNat,
    payload_ofNat, hvalue]

theorem decodeChar_fourBytes {v : Nat} (hlow : 0xFFFF < v) (hhigh : v < 0x110000) :
    decodeChar (UInt8.ofNat (v / 262144 % 0x08 + 0xF0)) (UInt8.ofNat (v / 4096 % 64 + 0x80) ::
        UInt8.ofNat (v / 64 % 64 + 0x80) :: UInt8.ofNat (v % 64 + 0x80) :: rest) =
      .char (Char.ofNat v) 4 rest := by
  have ha : (UInt8.ofNat (v / 262144 % 0x08 + 0xF0)).toNat = v / 262144 % 0x08 + 0xF0 :=
    toNat_ofNat_of_lt (by omega)
  have hb : (UInt8.ofNat (v / 4096 % 64 + 0x80)).toNat = v / 4096 % 64 + 0x80 :=
    toNat_ofNat_of_lt (by omega)
  have hsecond : isSecond (UInt8.ofNat (v / 262144 % 0x08 + 0xF0))
      (UInt8.ofNat (v / 4096 % 64 + 0x80)) = true := by
    rw [isSecond_iff, ha, hb]
    omega
  have hvalue : (((v / 262144 % 8 + 240) % 8 * 64 + v / 4096 % 64) * 64 + v / 64 % 64) * 64
      + v % 64 = v := by omega
  rw [decodeChar_four (by omega) (by omega) hsecond (isContinuation_ofNat _) (isContinuation_ofNat v),
    ha, payload_ofNat, payload_ofNat, payload_ofNat, hvalue]

/-- The first byte of the encoding of a character, with the others after it, is decoded as the
character. -/
theorem decodeChar_encoded (c : Char) (rest : List UInt8) :
    ∃ a more, String.utf8EncodeChar c = a :: more ∧
      decodeChar a (more ++ rest) = .char c (more.length + 1) rest := by
  have hc : Char.ofNat c.val.toNat = c := Char.ofNat_toNat c
  have hvalid : c.val.toNat < 0xD800 ∨ 0xDFFF < c.val.toNat ∧ c.val.toNat < 0x110000 := c.valid
  rw [String.utf8EncodeChar.eq_def]
  generalize c.val.toNat = v at hc hvalid
  dsimp only
  by_cases hone : v ≤ 0x7F
  · rw [if_pos hone]
    have ha : (UInt8.ofNat v).toNat = v := toNat_ofNat_of_lt (by omega)
    refine ⟨_, _, rfl, ?_⟩
    rw [List.nil_append, decodeChar_one (by omega), ha, hc]
    rfl
  rw [if_neg hone]
  by_cases htwo : v ≤ 0x7FF
  · rw [if_pos htwo, ← hc]
    exact ⟨_, _, rfl, decodeChar_twoBytes (by omega) htwo⟩
  rw [if_neg htwo]
  by_cases hthree : v ≤ 0xFFFF
  · rw [if_pos hthree, ← hc]
    exact ⟨_, _, rfl, decodeChar_threeBytes (by omega) hthree (by omega)⟩
  · rw [if_neg hthree, ← hc]
    exact ⟨_, _, rfl, decodeChar_fourBytes (by omega) (by omega)⟩

theorem toList_loop (bytes : ByteArray) (i : Nat) (done : List UInt8) :
    ByteArray.toList.loop bytes i done = done.reverse ++ bytes.data.toList.drop i := by
  fun_induction ByteArray.toList.loop bytes i done with
  | case1 i done h ih =>
      have hi : i < bytes.data.toList.length := by simpa using h
      rw [ih, List.drop_eq_getElem_cons hi]
      simp [ByteArray.get!, h]
  | case2 i done h =>
      rw [List.drop_eq_nil_of_le (by simpa using Nat.le_of_not_lt h), List.append_nil]

theorem encodeUtf8_eq (s : String) : encodeUtf8 s = s.toList.flatMap String.utf8EncodeChar := by
  have hbytes : s.toUTF8 = (s.toList.flatMap String.utf8EncodeChar).toByteArray :=
    String.utf8Encode_toList.symm
  rw [encodeUtf8, hbytes, ByteArray.toList, toList_loop, List.toList_data_toByteArray]
  rfl

theorem decodeFrom_encoded {cs done : List Char} {fuel position : Nat}
    (hfuel : (cs.flatMap String.utf8EncodeChar).length ≤ fuel) :
    decodeFrom fuel position done (cs.flatMap String.utf8EncodeChar) = .ok (done.reverse ++ cs) := by
  induction cs generalizing done fuel position with
  | nil =>
      rw [List.flatMap_nil, decodeFrom.eq_def]
      simp
  | cons c cs ih =>
      obtain ⟨a, more, hencoded, hdecoded⟩ := decodeChar_encoded c (cs.flatMap String.utf8EncodeChar)
      rw [List.flatMap_cons, hencoded, List.cons_append, List.length_cons, List.length_append] at hfuel
      cases fuel with
      | zero => omega
      | succ fuel =>
          rw [List.flatMap_cons, hencoded, List.cons_append, decodeFrom, hdecoded]
          dsimp only
          rw [ih (by omega), List.reverse_cons, List.append_assoc]
          rfl

/-- The encoding of a text is decoded as the text. -/
theorem decodeUtf8_encodeUtf8 (s : String) : decodeUtf8 (encodeUtf8 s) = .ok s.toList := by
  rw [decodeUtf8, encodeUtf8_eq, decodeFrom_encoded (Nat.le_refl _)]
  rfl

end TurretPunch.Text
