import Mqtt.Proofs.Wire.Utf8

/-!
# `Mqtt.Proofs.Wire.Strict`: what strict UTF-8 is

The reader has a table of first bytes, with a range for the second byte in each row.
Here strict UTF-8 is said without the table. The shape of a sequence of bytes tells the
number that they carry (`Carries`). They are a character if no shorter sequence carries
the number, and if it is the number of a character (`IsStrict`). A text is one such
sequence after the other (`Spells`).

* `Utf8.spells_iff`: the bytes of strings are strict UTF-8, and no others are.
* `Utf8.decode_eq_ok_iff`: the reader takes them for the string whose characters they
  spell.
* `Utf8.exists_decode_error_iff`: it refuses all others.
-/

set_option autoImplicit false

namespace Mqtt.Utf8

/-- Whether a byte continues a character: its first bits are 10. -/
def Continues (b : UInt8) : Prop :=
  b.toNat / 64 = 2

instance (b : UInt8) : Decidable (Continues b) :=
  inferInstanceAs (Decidable (_ = _))

/-- Whether a sequence of bytes carries a number, by its shape alone. A byte that stands
alone starts with the bit 0; else the first byte starts with a 1 for each byte of the
sequence and then a 0, and all others continue it. The bits that are left are those of
the number. -/
def Carries (n : Nat) : List UInt8 → Prop
  | [a] => a.toNat / 128 = 0 ∧ n = a.toNat
  | [a, b] => a.toNat / 32 = 6 ∧ Continues b ∧ n = a.toNat % 32 * 64 + b.toNat % 64
  | [a, b, c] => a.toNat / 16 = 14 ∧ Continues b ∧ Continues c ∧
      n = (a.toNat % 16 * 64 + b.toNat % 64) * 64 + c.toNat % 64
  | [a, b, c, d] => a.toNat / 8 = 30 ∧ Continues b ∧ Continues c ∧ Continues d ∧
      n = ((a.toNat % 8 * 64 + b.toNat % 64) * 64 + c.toNat % 64) * 64 + d.toNat % 64
  | _ => False

instance (n : Nat) : (seq : List UInt8) → Decidable (Carries n seq)
  | [_] | [_, _] | [_, _, _] | [_, _, _, _] => inferInstanceAs (Decidable (_ ∧ _))
  | [] | _ :: _ :: _ :: _ :: _ :: _ => isFalse id

/-- Whether a sequence of bytes is the character with a number, in strict UTF-8. -/
structure IsStrict (seq : List UInt8) (n : Nat) : Prop where
  carries : Carries n seq
  /-- The sequence is not overlong. -/
  shortest : ∀ other, Carries n other → seq.length ≤ other.length
  not_surrogate : ¬ (0xD800 ≤ n ∧ n ≤ 0xDFFF)
  le : n ≤ 0x10FFFF

/-- Whether bytes are strict UTF-8 for the characters with the given numbers. -/
inductive Spells : List UInt8 → List Nat → Prop where
  | nil : Spells [] []
  | append {seq bs : List UInt8} {n : Nat} {ns : List Nat} (h : IsStrict seq n)
      (hrest : Spells bs ns) : Spells (seq ++ bs) (n :: ns)

/-! ### Shapes and numbers -/

/-- There is one sequence of each shape for a number. -/
theorem Carries.eq_of_length {n : Nat} {seq other : List UInt8} (h : Carries n seq)
    (h' : Carries n other) (hlength : seq.length = other.length) : seq = other := by
  -- One case for each shape: the digits of the number are the bytes without their marks.
  match seq, h, other, h', hlength with
  | [a], ⟨_, hn⟩, [a'], ⟨_, hn'⟩, _ =>
      rw [UInt8.toNat_inj.mp (hn.symm.trans hn')]
  | [a, b], ⟨ha, hb, hn⟩, [a', b'], ⟨ha', hb', hn'⟩, _ =>
      unfold Continues at hb hb'
      rw [show a = a' from UInt8.toNat_inj.mp (by omega),
        show b = b' from UInt8.toNat_inj.mp (by omega)]
  | [a, b, c], ⟨ha, hb, hc, hn⟩, [a', b', c'], ⟨ha', hb', hc', hn'⟩, _ =>
      unfold Continues at hb hb' hc hc'
      rw [show a = a' from UInt8.toNat_inj.mp (by omega),
        show b = b' from UInt8.toNat_inj.mp (by omega),
        show c = c' from UInt8.toNat_inj.mp (by omega)]
  | [a, b, c, d], ⟨ha, hb, hc, hd, hn⟩, [a', b', c', d'], ⟨ha', hb', hc', hd', hn'⟩, _ =>
      unfold Continues at hb hb' hc hc' hd hd'
      rw [show a = a' from UInt8.toNat_inj.mp (by omega),
        show b = b' from UInt8.toNat_inj.mp (by omega),
        show c = c' from UInt8.toNat_inj.mp (by omega),
        show d = d' from UInt8.toNat_inj.mp (by omega)]

/-- Few bytes carry small numbers only. -/
theorem Carries.length_cases {n : Nat} {seq : List UInt8} (h : Carries n seq) :
    (n < 0x80 ∧ 1 ≤ seq.length) ∨ (n < 0x800 ∧ 2 ≤ seq.length) ∨
      (n < 0x10000 ∧ 3 ≤ seq.length) ∨ 4 ≤ seq.length := by
  match seq, h with
  | [a], ⟨ha, hn⟩ => exact Or.inl ⟨by omega, Nat.le_refl 1⟩
  | [a, b], ⟨ha, _, hn⟩ => exact Or.inr (Or.inl ⟨by omega, Nat.le_refl 2⟩)
  | [a, b, c], ⟨ha, _, _, hn⟩ => exact Or.inr (Or.inr (Or.inl ⟨by omega, Nat.le_refl 3⟩))
  | [a, b, c, d], _ => exact Or.inr (Or.inr (Or.inr (Nat.le_refl 4)))

/-! ### Characters -/

/-- The bytes of a character carry its number. -/
theorem carries_encodeChar (c : Char) : Carries c.toNat (String.utf8EncodeChar c) := by
  have hvalid : c.val.toNat < 0xD800 ∨ 0xDFFF < c.val.toNat ∧ c.val.toNat < 0x110000 := c.valid
  show Carries c.val.toNat _
  unfold String.utf8EncodeChar
  dsimp only
  generalize c.val.toNat = v at hvalid
  -- One case for each number of bytes.
  split
  · simp only [Carries, UInt8.toNat_ofNat']
    omega
  split
  · simp only [Carries, Continues, UInt8.toNat_ofNat']
    omega
  split
  · simp only [Carries, Continues, UInt8.toNat_ofNat']
    omega
  · simp only [Carries, Continues, UInt8.toNat_ofNat']
    omega

/-- No fewer bytes carry the number of a character than those that it is written with. -/
theorem length_encodeChar_le {c : Char} {other : List UInt8} (h : Carries c.toNat other) :
    (String.utf8EncodeChar c).length ≤ other.length := by
  have hcases := h.length_cases
  unfold String.utf8EncodeChar
  unfold Char.toNat at hcases
  dsimp only
  split
  · show 1 ≤ other.length
    omega
  split
  · show 2 ≤ other.length
    omega
  split
  · show 3 ≤ other.length
    omega
  · show 4 ≤ other.length
    omega

/-- The bytes of a character are strict for its number. -/
theorem isStrict_encodeChar (c : Char) : IsStrict (String.utf8EncodeChar c) c.toNat := by
  have hvalid : c.toNat < 0xD800 ∨ 0xDFFF < c.toNat ∧ c.toNat < 0x110000 := c.valid
  exact ⟨carries_encodeChar c, fun _ => length_encodeChar_le, by omega, by omega⟩

/-- A sequence is strict for no character but the one that is written with it: both are
shortest, and there is only one of that length. -/
theorem IsStrict.exists_char {seq : List UInt8} {n : Nat} (h : IsStrict seq n) :
    ∃ c : Char, c.toNat = n ∧ String.utf8EncodeChar c = seq := by
  have hsurrogate := h.not_surrogate
  have hle := h.le
  -- A number that is no surrogate and not too great is that of a character.
  obtain ⟨c, rfl⟩ : ∃ c : Char, c.toNat = n := ⟨Char.ofNat n, toNat_val_ofNat (by omega)⟩
  have hlength : (String.utf8EncodeChar c).length = seq.length :=
    Nat.le_antisymm (length_encodeChar_le h.carries) (h.shortest _ (carries_encodeChar c))
  exact ⟨c, rfl, (carries_encodeChar c).eq_of_length h.carries hlength⟩

/-! ### Texts -/

/-- The numbers of the characters of a text. -/
def codes (s : String) : List Nat :=
  s.toList.map Char.toNat

/-- A string is told by the numbers of its characters. -/
theorem codes_injective {s s' : String} (h : codes s = codes s') : s = s' :=
  String.toList_inj.mp ((List.map_inj_right fun _ _ => Char.toNat_inj.mp).mp h)

/-- The number 0 is that of U+0000 only. -/
theorem zero_mem_codes_iff {s : String} : 0 ∈ codes s ↔ '\x00' ∈ s.toList := by
  refine List.mem_map.trans ⟨?_, fun h => ⟨_, h, rfl⟩⟩
  rintro ⟨c, hc, hzero⟩
  exact (Char.toNat_inj.mp hzero : c = '\x00') ▸ hc

/-- The bytes of characters spell their numbers. -/
theorem spells_flatMap (cs : List Char) :
    Spells (cs.flatMap String.utf8EncodeChar) (cs.map Char.toNat) := by
  induction cs with
  | nil => exact .nil
  | cons c cs ih => exact .append (isStrict_encodeChar c) ih

/-- What is spelled is a row of characters. -/
theorem Spells.exists_chars {bs : List UInt8} {ns : List Nat} (h : Spells bs ns) :
    ∃ cs : List Char, cs.map Char.toNat = ns ∧ cs.flatMap String.utf8EncodeChar = bs := by
  induction h with
  | nil => exact ⟨[], rfl, rfl⟩
  | append h hrest ih =>
      obtain ⟨c, rfl, rfl⟩ := h.exists_char
      obtain ⟨cs, rfl, rfl⟩ := ih
      exact ⟨c :: cs, rfl, rfl⟩

/-- Strict UTF-8 is what strings are written as. -/
theorem spells_iff {bs : List UInt8} {ns : List Nat} :
    Spells bs ns ↔ ∃ s, encode s = bs ∧ codes s = ns := by
  constructor
  · intro h
    obtain ⟨cs, rfl, rfl⟩ := h.exists_chars
    refine ⟨String.ofList cs, ?_, ?_⟩
    · rw [encode, String.toList_ofList]
    · rw [codes, String.toList_ofList]
  · rintro ⟨s, rfl, rfl⟩
    exact spells_flatMap s.toList

/-- The characters of a string are spelled by its own bytes only. -/
theorem spells_codes_iff {bs : List UInt8} {s : String} : Spells bs (codes s) ↔ encode s = bs := by
  rw [spells_iff]
  constructor
  · rintro ⟨s', rfl, hcodes⟩
    rw [codes_injective hcodes]
  · exact fun h => ⟨s, h, rfl⟩

/-- The reader takes bytes for the string whose characters they spell. -/
theorem decode_eq_ok_iff {bs : List UInt8} {s : String} :
    decode bs = .ok s ↔ Spells bs (codes s) := by
  rw [spells_codes_iff]
  constructor
  · exact encode_of_decode
  · rintro rfl
    exact decode_encode s

/-- The reader refuses bytes that spell nothing. -/
theorem exists_decode_error_iff {bs : List UInt8} :
    (∃ fault, decode bs = .error fault) ↔ ¬ ∃ ns, Spells bs ns := by
  cases hdecode : decode bs with
  | ok s => simpa using ⟨_, decode_eq_ok_iff.mp hdecode⟩
  | error fault =>
      refine iff_of_true ⟨fault, rfl⟩ ?_
      rintro ⟨ns, hspells⟩
      obtain ⟨s, rfl, -⟩ := spells_iff.mp hspells
      cases (decode_encode s).symm.trans hdecode

/-- An overlong form, a surrogate and a number that is too great have the shape of a
character, so that it takes all conditions to keep them out. -/
example : Carries 0 [0xC0, 0x80] ∧ Carries 0xD800 [0xED, 0xA0, 0x80] ∧
    Carries 0x110000 [0xF4, 0x90, 0x80, 0x80] := by
  decide

end Mqtt.Utf8
