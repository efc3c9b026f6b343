import Mqtt.Utf8

/-!
# `Mqtt.Proofs.Wire.Utf8`: reading text and writing it are inverse

The reader goes through bytes one at a time with the ranges of the second
byte in a table; the writer computes the bytes of a character at once. They
agree on every character, whatever follows it, and the reader accepts
nothing else.

* `Utf8.front_encodeChar`: a character at the front is read back.
* `Utf8.decode_encode`: so is a whole string.
* `Utf8.eq_encodeChar_of_front`: the bytes of a character that was read are
  those that write it.
* `Utf8.encode_of_decode`: so are those of a whole string.
-/

set_option autoImplicit false

namespace Mqtt.Utf8

/-- The table of first bytes, in numbers. -/
theorem ofByte?_ofNat (n : Nat) (h : n < 256) :
    Lead.ofByte? (UInt8.ofNat n)
      = if n < 0x80 then some ⟨n, 0, 0x80, 0xBF⟩
        else if n < 0xC2 then none
        else if n < 0xE0 then some ⟨n - 0xC0, 1, 0x80, 0xBF⟩
        else if n = 0xE0 then some ⟨0, 2, 0xA0, 0xBF⟩
        else if n = 0xED then some ⟨0xD, 2, 0x80, 0x9F⟩
        else if n < 0xF0 then some ⟨n - 0xE0, 2, 0x80, 0xBF⟩
        else if n = 0xF0 then some ⟨0, 3, 0x90, 0xBF⟩
        else if n < 0xF4 then some ⟨n - 0xF0, 3, 0x80, 0xBF⟩
        else if n = 0xF4 then some ⟨4, 3, 0x80, 0x8F⟩
        else none := by
  have hval : (UInt8.ofNat n).toNat = n := UInt8.toNat_ofNat_of_lt' h
  unfold Lead.ofByte?
  simp only [UInt8.lt_iff_toNat_lt, ← UInt8.toNat_inj, hval]
  rfl

/-- A byte in its range adds six bits to a character. -/
theorem follow_ofNat (read bits owed : Nat) (low high : UInt8) (n : Nat) (bs : List UInt8)
    (h : n < 256) (hlow : low.toNat ≤ n) (hhigh : n ≤ high.toNat) :
    follow read bits (owed + 1) low high (UInt8.ofNat n :: bs)
      = follow (read + 1) (bits * 64 + (n - 0x80)) owed 0x80 0xBF bs := by
  have hval : (UInt8.ofNat n).toNat = n := UInt8.toNat_ofNat_of_lt' h
  rw [follow, if_pos, hval]
  rw [UInt8.le_iff_toNat_le, UInt8.le_iff_toNat_le, hval]
  exact ⟨hlow, hhigh⟩

/-- A byte after the second adds six bits, whatever its low half is. -/
theorem follow_continuing (read bits owed n : Nat) (bs : List UInt8) :
    follow read bits (owed + 1) 0x80 0xBF (UInt8.ofNat (n % 64 + 0x80) :: bs)
      = follow (read + 1) (bits * 64 + n % 64) owed 0x80 0xBF bs := by
  rw [follow_ofNat read bits owed 0x80 0xBF (n % 64 + 0x80) bs (by omega)
    (by show 128 ≤ _; omega) (by show _ ≤ 191; omega), Nat.add_sub_cancel]

/-- The first of two bytes. -/
theorem ofByte?_two (v : Nat) (hlow : 0x80 ≤ v) (hhigh : v ≤ 0x7FF) :
    Lead.ofByte? (UInt8.ofNat (v / 64 % 32 + 0xC0)) = some ⟨v / 64, 1, 0x80, 0xBF⟩ := by
  rw [ofByte?_ofNat _ (by omega), if_neg (by omega), if_neg (by omega), if_pos (by omega),
    show v / 64 % 32 + 0xC0 - 0xC0 = v / 64 by omega]

/-- The first of three bytes. The second is in its range, because the
character is neither overlong nor a surrogate. -/
theorem ofByte?_three (v : Nat) (hlow : 0x800 ≤ v) (hhigh : v ≤ 0xFFFF)
    (hvalid : v < 0xD800 ∨ 0xDFFF < v) :
    ∃ low high : UInt8, low.toNat ≤ v / 64 % 64 + 0x80 ∧ v / 64 % 64 + 0x80 ≤ high.toNat ∧
      Lead.ofByte? (UInt8.ofNat (v / 4096 % 16 + 0xE0)) = some ⟨v / 4096, 2, low, high⟩ := by
  -- The table narrows the second byte after E0 and after ED.
  rw [ofByte?_ofNat _ (by omega), if_neg (by omega), if_neg (by omega), if_neg (by omega)]
  by_cases hfirst : v / 4096 = 0
  · refine ⟨0xA0, 0xBF, ?_, ?_, ?_⟩
    · show 160 ≤ _
      omega
    · show _ ≤ 191
      omega
    · rw [if_pos (by omega), hfirst]
  rw [if_neg (by omega)]
  by_cases hsurrogate : v / 4096 = 13
  · refine ⟨0x80, 0x9F, ?_, ?_, ?_⟩
    · show 128 ≤ _
      omega
    · show _ ≤ 159
      omega
    · rw [if_pos (by omega), hsurrogate]
  · refine ⟨0x80, 0xBF, ?_, ?_, ?_⟩
    · show 128 ≤ _
      omega
    · show _ ≤ 191
      omega
    · rw [if_neg (by omega), if_pos (by omega),
        show v / 4096 % 16 + 0xE0 - 0xE0 = v / 4096 by omega]

/-- The first of four bytes. The second is in its range, because the
character is neither overlong nor too great. -/
theorem ofByte?_four (v : Nat) (hlow : 0x10000 ≤ v) (hhigh : v < 0x110000) :
    ∃ low high : UInt8, low.toNat ≤ v / 4096 % 64 + 0x80 ∧ v / 4096 % 64 + 0x80 ≤ high.toNat ∧
      Lead.ofByte? (UInt8.ofNat (v / 262144 % 8 + 0xF0)) = some ⟨v / 262144, 3, low, high⟩ := by
  rw [ofByte?_ofNat _ (by omega), if_neg (by omega), if_neg (by omega), if_neg (by omega),
    if_neg (by omega), if_neg (by omega), if_neg (by omega)]
  -- The table narrows the second byte after F0 and after F4.
  by_cases hfirst : v / 262144 = 0
  · refine ⟨0x90, 0xBF, ?_, ?_, ?_⟩
    · show 144 ≤ _
      omega
    · show _ ≤ 191
      omega
    · rw [if_pos (by omega), hfirst]
  rw [if_neg (by omega)]
  by_cases hlast : v / 262144 = 4
  · refine ⟨0x80, 0x8F, ?_, ?_, ?_⟩
    · show 128 ≤ _
      omega
    · show _ ≤ 143
      omega
    · rw [if_neg (by omega), if_pos (by omega), hlast]
  · refine ⟨0x80, 0xBF, ?_, ?_, ?_⟩
    · show 128 ≤ _
      omega
    · show _ ≤ 191
      omega
    · rw [if_pos (by omega), show v / 262144 % 8 + 0xF0 - 0xF0 = v / 262144 by omega]

/-- A character is read back from its bytes. -/
theorem front_encodeChar (c : Char) (rest : List UInt8) :
    front (String.utf8EncodeChar c ++ rest) = .char c rest := by
  have hchar : Char.ofNat c.val.toNat = c := Char.ofNat_toNat c
  have hvalid : c.val.toNat < 0xD800 ∨ 0xDFFF < c.val.toNat ∧ c.val.toNat < 0x110000 := c.valid
  -- One case for each number of bytes. The bits that they carry add up to
  -- the character again.
  unfold String.utf8EncodeChar
  dsimp only
  generalize c.val.toNat = v at hchar hvalid
  split
  · rw [List.cons_append, List.nil_append, front, ofByte?_ofNat v (by omega), if_pos (by omega)]
    show Front.char (Char.ofNat v) rest = _
    rw [hchar]
  split
  · rw [List.cons_append, List.cons_append, List.nil_append, front,
      ofByte?_two v (by omega) (by omega)]
    dsimp only
    rw [follow_continuing, follow, show v / 64 * 64 + v % 64 = v by omega, hchar]
  split
  · obtain ⟨low, high, hlow, hhigh, hlead⟩ :=
      ofByte?_three v (by omega) (by omega) (by omega)
    rw [List.cons_append, List.cons_append, List.cons_append, List.nil_append, front, hlead]
    dsimp only
    rw [follow_ofNat _ _ _ _ _ _ _ (by omega) hlow hhigh, follow_continuing, follow,
      show (v / 4096 * 64 + (v / 64 % 64 + 0x80 - 0x80)) * 64 + v % 64 = v by omega, hchar]
  · obtain ⟨low, high, hlow, hhigh, hlead⟩ := ofByte?_four v (by omega) (by omega)
    rw [List.cons_append, List.cons_append, List.cons_append, List.cons_append, List.nil_append,
      front, hlead]
    dsimp only
    rw [follow_ofNat _ _ _ _ _ _ _ (by omega) hlow hhigh, follow_continuing, follow_continuing,
      follow, show ((v / 262144 * 64 + (v / 4096 % 64 + 0x80 - 0x80)) * 64 + v / 64 % 64) * 64
        + v % 64 = v by omega, hchar]

/-- Characters are read back one after the other. -/
theorem decodeFrom_flatMap (index : Nat) (seen cs : List Char) :
    decodeFrom index seen (cs.flatMap String.utf8EncodeChar)
      = .ok (String.ofList (seen.reverse ++ cs)) := by
  induction cs generalizing index seen with
  | nil =>
      rw [List.flatMap_nil, List.append_nil, decodeFrom]
      rfl
  | cons c cs ih =>
      have hfront := front_encodeChar c (cs.flatMap String.utf8EncodeChar)
      rw [List.flatMap_cons, decodeFrom]
      split
      · next h => cases hfront.symm.trans h
      · next c' rest h =>
          obtain ⟨rfl, rfl⟩ := Front.char.inj (hfront.symm.trans h)
          rw [ih, List.reverse_cons, List.append_assoc]
          rfl
      · next h => cases hfront.symm.trans h
      · next h => cases hfront.symm.trans h

/-- A string is read back from its bytes. -/
theorem decode_encode (s : String) : decode (encode s) = .ok s := by
  rw [decode, encode, decodeFrom_flatMap]
  show Except.ok (String.ofList s.toList) = _
  rw [String.ofList_toList]

/-! ### What is read is what is written -/

/-- A number that is no surrogate, and not too great, is that of a character. -/
theorem toNat_val_ofNat {v : Nat} (h : v < 0xD800 ∨ 0xDFFF < v ∧ v < 0x110000) :
    (Char.ofNat v).val.toNat = v := by
  have hvalid : v.isValidChar := h
  rw [Char.ofNat, dif_pos hvalid]
  rfl

/-- A character that lacks bytes got the next one from its range. -/
theorem follow_eq_char {read bits owed : Nat} {low high : UInt8} {bs rest : List UInt8} {c : Char}
    (h : follow read bits (owed + 1) low high bs = .char c rest) :
    ∃ n later, bs = UInt8.ofNat n :: later ∧ low.toNat ≤ n ∧ n ≤ high.toNat ∧
      follow (read + 1) (bits * 64 + (n - 0x80)) owed 0x80 0xBF later = .char c rest := by
  cases bs with
  | nil => cases h
  | cons b bs =>
      rw [follow] at h
      split at h
      · next hrange =>
          exact ⟨b.toNat, bs, by rw [UInt8.ofNat_toNat], hrange.1, hrange.2, h⟩
      · cases h

/-- A character that lacks nothing is done. -/
theorem follow_zero_eq_char {read bits : Nat} {low high : UInt8} {bs rest : List UInt8} {c : Char}
    (h : follow read bits 0 low high bs = .char c rest) : Char.ofNat bits = c ∧ bs = rest :=
  Front.char.inj h

/-- One byte is that of its character. -/
theorem follow_one {x : Nat} {bs rest : List UInt8} {c : Char} (hx : x < 0x80)
    (h : follow 1 x 0 0x80 0xBF bs = .char c rest) :
    UInt8.ofNat x :: bs = String.utf8EncodeChar c ++ rest := by
  obtain ⟨rfl, rfl⟩ := follow_zero_eq_char h
  rw [String.utf8EncodeChar, toNat_val_ofNat (by omega), if_pos (by omega)]
  rfl

/-- Two bytes are those of their character, unless it is overlong. -/
theorem follow_two {x : Nat} {bs rest : List UInt8} {c : Char} (hlow : 2 ≤ x) (hhigh : x < 32)
    (h : follow 1 x 1 0x80 0xBF bs = .char c rest) :
    UInt8.ofNat (x + 0xC0) :: bs = String.utf8EncodeChar c ++ rest := by
  obtain ⟨n, later, rfl, hn, hn', h⟩ := follow_eq_char h
  obtain ⟨rfl, rfl⟩ := follow_zero_eq_char h
  have hn : 0x80 ≤ n := hn
  have hn' : n ≤ 0xBF := hn'
  rw [String.utf8EncodeChar, toNat_val_ofNat (by omega)]
  rw [if_neg (by omega), if_pos (by omega),
    show (x * 64 + (n - 0x80)) / 64 % 32 + 192 = x + 0xC0 by omega,
    show (x * 64 + (n - 0x80)) % 64 + 128 = n by omega]
  rfl

/-- Three bytes are those of their character, unless it is overlong or a
surrogate. -/
theorem follow_three {x : Nat} {low high : UInt8} {bs rest : List UInt8} {c : Char} (hx : x < 16)
    (hlow : 0x80 ≤ low.toNat) (hhigh : high.toNat ≤ 0xBF) (hfirst : x = 0 → 0xA0 ≤ low.toNat)
    (hsurrogate : x = 13 → high.toNat ≤ 0x9F) (h : follow 1 x 2 low high bs = .char c rest) :
    UInt8.ofNat (x + 0xE0) :: bs = String.utf8EncodeChar c ++ rest := by
  obtain ⟨n, later, rfl, hn, hn', h⟩ := follow_eq_char h
  obtain ⟨k, last, rfl, hk, hk', h⟩ := follow_eq_char h
  obtain ⟨rfl, rfl⟩ := follow_zero_eq_char h
  have hk : 0x80 ≤ k := hk
  have hk' : k ≤ 0xBF := hk'
  rw [String.utf8EncodeChar, toNat_val_ofNat (by omega)]
  rw [if_neg (by omega), if_neg (by omega), if_pos (by omega),
    show ((x * 64 + (n - 0x80)) * 64 + (k - 0x80)) / 4096 % 16 + 224 = x + 0xE0 by omega,
    show ((x * 64 + (n - 0x80)) * 64 + (k - 0x80)) / 64 % 64 + 128 = n by omega,
    show ((x * 64 + (n - 0x80)) * 64 + (k - 0x80)) % 64 + 128 = k by omega]
  rfl

/-- Four bytes are those of their character, unless it is overlong or too
great. -/
theorem follow_four {x : Nat} {low high : UInt8} {bs rest : List UInt8} {c : Char} (hx : x < 5)
    (hlow : 0x80 ≤ low.toNat) (hhigh : high.toNat ≤ 0xBF) (hfirst : x = 0 → 0x90 ≤ low.toNat)
    (hlast : x = 4 → high.toNat ≤ 0x8F) (h : follow 1 x 3 low high bs = .char c rest) :
    UInt8.ofNat (x + 0xF0) :: bs = String.utf8EncodeChar c ++ rest := by
  obtain ⟨n, later, rfl, hn, hn', h⟩ := follow_eq_char h
  obtain ⟨k, later, rfl, hk, hk', h⟩ := follow_eq_char h
  obtain ⟨l, last, rfl, hl, hl', h⟩ := follow_eq_char h
  obtain ⟨rfl, rfl⟩ := follow_zero_eq_char h
  have hk : 0x80 ≤ k := hk
  have hk' : k ≤ 0xBF := hk'
  have hl : 0x80 ≤ l := hl
  have hl' : l ≤ 0xBF := hl'
  rw [String.utf8EncodeChar, toNat_val_ofNat (by omega)]
  rw [if_neg (by omega), if_neg (by omega), if_neg (by omega),
    show (((x * 64 + (n - 0x80)) * 64 + (k - 0x80)) * 64 + (l - 0x80)) / 262144 % 8 + 240
      = x + 0xF0 by omega,
    show (((x * 64 + (n - 0x80)) * 64 + (k - 0x80)) * 64 + (l - 0x80)) / 4096 % 64 + 128
      = n by omega,
    show (((x * 64 + (n - 0x80)) * 64 + (k - 0x80)) * 64 + (l - 0x80)) / 64 % 64 + 128 = k by omega,
    show (((x * 64 + (n - 0x80)) * 64 + (k - 0x80)) * 64 + (l - 0x80)) % 64 + 128 = l by omega]
  rfl

/-- Only nothing is done before it starts. -/
theorem front_ne_done (a : UInt8) (bs : List UInt8) : front (a :: bs) ≠ .done := by
  have hfollow : ∀ read bits owed (low high : UInt8) later,
      follow read bits owed low high later ≠ .done := by
    intro read bits owed
    induction owed generalizing read bits with
    | zero => intro low high later h; cases h
    | succ owed ih =>
        intro low high later h
        cases later with
        | nil => cases h
        | cons b later =>
            rw [follow] at h
            split at h
            · exact ih _ _ _ _ _ h
            · cases h
  intro h
  rw [front] at h
  split at h
  · cases h
  · exact hfollow _ _ _ _ _ _ h

/-- A first byte is that of one, two, three or four bytes. The second byte is
held to what is neither overlong, nor a surrogate, nor too great. -/
theorem ofByte?_cases {n : Nat} {lead : Lead} (hn : n < 256)
    (h : Lead.ofByte? (UInt8.ofNat n) = some lead) :
    (n < 0x80 ∧ lead = ⟨n, 0, 0x80, 0xBF⟩) ∨
    (∃ x, 2 ≤ x ∧ x < 32 ∧ n = x + 0xC0 ∧ lead = ⟨x, 1, 0x80, 0xBF⟩) ∨
    (∃ x low high, x < 16 ∧ n = x + 0xE0 ∧ 0x80 ≤ low.toNat ∧ high.toNat ≤ 0xBF ∧
      (x = 0 → 0xA0 ≤ low.toNat) ∧ (x = 13 → high.toNat ≤ 0x9F) ∧ lead = ⟨x, 2, low, high⟩) ∨
    (∃ x low high, x < 5 ∧ n = x + 0xF0 ∧ 0x80 ≤ low.toNat ∧ high.toNat ≤ 0xBF ∧
      (x = 0 → 0x90 ≤ low.toNat) ∧ (x = 4 → high.toNat ≤ 0x8F) ∧ lead = ⟨x, 3, low, high⟩) := by
  rw [ofByte?_ofNat n hn] at h
  -- One case for each row of the table.
  split at h
  · exact Or.inl ⟨by omega, (Option.some.inj h).symm⟩
  split at h
  · cases h
  split at h
  · exact Or.inr (Or.inl ⟨n - 0xC0, by omega, by omega, by omega, (Option.some.inj h).symm⟩)
  split at h
  · exact Or.inr (Or.inr (Or.inl ⟨0, 0xA0, 0xBF, by omega, by omega, by decide, by decide,
      by decide, by decide, (Option.some.inj h).symm⟩))
  split at h
  · exact Or.inr (Or.inr (Or.inl ⟨13, 0x80, 0x9F, by omega, by omega, by decide, by decide,
      by decide, by decide, (Option.some.inj h).symm⟩))
  split at h
  · exact Or.inr (Or.inr (Or.inl ⟨n - 0xE0, 0x80, 0xBF, by omega, by omega, by decide, by decide,
      by omega, by omega, (Option.some.inj h).symm⟩))
  split at h
  · exact Or.inr (Or.inr (Or.inr ⟨0, 0x90, 0xBF, by omega, by omega, by decide, by decide,
      by decide, by decide, (Option.some.inj h).symm⟩))
  split at h
  · exact Or.inr (Or.inr (Or.inr ⟨n - 0xF0, 0x80, 0xBF, by omega, by omega, by decide, by decide,
      by omega, by omega, (Option.some.inj h).symm⟩))
  split at h
  · exact Or.inr (Or.inr (Or.inr ⟨4, 0x80, 0x8F, by omega, by omega, by decide, by decide,
      by decide, by decide, (Option.some.inj h).symm⟩))
  · cases h

/-- The bytes of the character at the front are those that write it. -/
theorem eq_encodeChar_of_front {bs rest : List UInt8} {c : Char} (h : front bs = .char c rest) :
    bs = String.utf8EncodeChar c ++ rest := by
  cases bs with
  | nil => cases h
  | cons a bs =>
      obtain ⟨n, hn, rfl⟩ : ∃ n, n < 256 ∧ a = UInt8.ofNat n :=
        ⟨a.toNat, a.toNat_lt, by rw [UInt8.ofNat_toNat]⟩
      rw [front] at h
      split at h
      · cases h
      · next lead hlead =>
          rcases ofByte?_cases hn hlead with ⟨hx, rfl⟩ | ⟨x, hlow, hhigh, rfl, rfl⟩ |
            ⟨x, low, high, hx, rfl, hlow, hhigh, hfirst, hsurrogate, rfl⟩ |
            ⟨x, low, high, hx, rfl, hlow, hhigh, hfirst, hlast, rfl⟩
          · exact follow_one hx h
          · exact follow_two hlow hhigh h
          · exact follow_three hx hlow hhigh hfirst hsurrogate h
          · exact follow_four hx hlow hhigh hfirst hlast h

/-- The bytes of the characters that were read are those that write them. -/
theorem eq_flatMap_of_decodeFrom {index : Nat} {seen : List Char} {bs : List UInt8} {s : String}
    (h : decodeFrom index seen bs = .ok s) :
    ∃ cs, s = String.ofList (seen.reverse ++ cs) ∧ bs = cs.flatMap String.utf8EncodeChar := by
  fun_induction decodeFrom index seen bs with
  | case1 index seen bs hfront =>
      refine ⟨[], by rw [List.append_nil]; exact (Except.ok.inj h).symm, ?_⟩
      cases bs with
      | nil => rfl
      | cons a bs => exact absurd hfront (front_ne_done a bs)
  | case2 index seen bs c rest hfront hlt ih =>
      obtain ⟨cs, rfl, hrest⟩ := ih h
      refine ⟨c :: cs, by rw [List.reverse_cons, List.append_assoc]; rfl, ?_⟩
      rw [eq_encodeChar_of_front hfront, hrest]
      rfl
  | case3 index seen bs length hfront => cases h
  | case4 index seen bs hfront => cases h

/-- Bytes that are read as a string are those that write it. -/
theorem encode_of_decode {bs : List UInt8} {s : String} (h : decode bs = .ok s) :
    encode s = bs := by
  obtain ⟨cs, rfl, rfl⟩ := eq_flatMap_of_decodeFrom h
  rw [encode, List.reverse_nil, List.nil_append, String.toList_ofList]

end Mqtt.Utf8
