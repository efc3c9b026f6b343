import Mathlib.Data.Nat.Digits.Lemmas
import Mqtt.Wire.Header

/-!
# `Mqtt.Proofs.Wire.Length`: length fields

The reader of a length field goes from byte to byte. Here is what it reads,
told of all bytes at once (`IsLengthField`), and where it has to wait for more
(`IsOpen`).

* `decodeLength_eq_some_iff`: what is read is a length field, and every length
  field is read, longer than it has to be or not.
* `decodeLength_eq_none_iff`: no answer is given as long as the field is open.
* `decodeLength_eq_error_iff`: a fifth byte is one too many.

A length is told by several fields, because the high digits may be 0. The writer
takes the one without such digits.

* `isLengthField_lengthBytes`: four bytes are enough for what is written.
* `IsLengthField.eq_or_lt`: it is the only shortest field.
* `length_fields_exact`: what is written, and what the reader says of every byte
  string.
-/

set_option autoImplicit false

namespace Mqtt

/-- The number that some bytes tell: the low seven bits of each are a digit in
base 128, and the lowest digit comes first. -/
def digitsValue (bs : List UInt8) : Nat :=
  Nat.ofDigits 128 (bs.map fun b => b.toNat % 128)

/-- Whether some bytes are a length field for `n`. There are at most four, and
all but the last have their high bit set. The high digits may be 0. -/
def IsLengthField (field : List UInt8) (n : Nat) : Prop :=
  ∃ front last, field = front ++ [last] ∧ front.length < 4 ∧ (∀ b ∈ front, 128 ≤ b) ∧ last < 128 ∧
    n = digitsValue field

/-- Whether a length field may end behind some bytes, but not within them. -/
def IsOpen (bs : List UInt8) : Prop :=
  bs.length ≤ 4 ∧ ∀ b ∈ bs, 128 ≤ b

/-! ### Digits -/

/-- The last byte of a field has its high bit clear, so it is its own digit. -/
theorem digitsValue_last {b : UInt8} (h : b < 128) : digitsValue [b] = b.toNat := by
  rw [digitsValue, List.map_singleton, Nat.ofDigits_singleton]
  exact Nat.mod_eq_of_lt (UInt8.lt_iff_toNat_lt.mp h)

/-- Any other byte has its high bit set, which is not part of its digit. -/
theorem digitsValue_more {b : UInt8} (h : 128 ≤ b) (bs : List UInt8) :
    digitsValue (b :: bs) = b.toNat - 128 + 128 * digitsValue bs := by
  have hle : 128 ≤ b.toNat := UInt8.le_iff_toNat_le.mp h
  have hlt : b.toNat < 256 := b.toNat_lt
  have hdigit : b.toNat % 128 = b.toNat - 128 := by omega
  rw [digitsValue, List.map_cons, Nat.ofDigits_cons, hdigit]
  rfl

/-- The number is the sum of the digits at their places. -/
theorem digitsValue_eq_sum (bs : List UInt8) :
    digitsValue bs = ((bs.map fun b => b.toNat % 128).mapIdx fun i digit => digit * 128 ^ i).sum :=
  Nat.ofDigits_eq_sum_mapIdx 128 _

/-- Four digits tell no more than can be written. -/
theorem IsLengthField.le {field : List UInt8} {n : Nat} (h : IsLengthField field n) :
    n ≤ maxRemainingLength := by
  obtain ⟨front, last, rfl, hroom, -, -, rfl⟩ := h
  have hdigits : ∀ d ∈ (front ++ [last]).map (fun b => b.toNat % 128), d < 128 := by
    intro d hd
    obtain ⟨b, -, rfl⟩ := List.mem_map.mp hd
    exact Nat.mod_lt _ (by decide)
  have hlt := Nat.ofDigits_lt_base_pow_length (by decide) hdigits
  rw [List.length_map, List.length_append] at hlt
  have hfour : 128 ^ (front.length + [last].length) ≤ 128 ^ 4 :=
    Nat.pow_le_pow_right (by decide) hroom
  exact Nat.le_of_lt_succ (Nat.lt_of_lt_of_le hlt hfour)

/-! ### Reading -/

/-- A field is read up to its first byte without the high bit. -/
theorem readLength_of_front {room : Nat} {front : List UInt8} (hroom : front.length < room)
    (hfront : ∀ b ∈ front, 128 ≤ b) {last : UInt8} (hlast : last < 128) (rest : List UInt8) :
    readLength room (front ++ last :: rest)
      = .ok (some ⟨digitsValue (front ++ [last]), front.length + 1, rest⟩) := by
  induction front generalizing room with
  | nil =>
      obtain ⟨room, rfl⟩ := Nat.exists_eq_succ_of_ne_zero (Nat.ne_of_gt hroom)
      rw [List.nil_append, readLength, if_pos hlast, List.nil_append, digitsValue_last hlast]
      rfl
  | cons b front ih =>
      obtain ⟨room, rfl⟩ := Nat.exists_eq_succ_of_ne_zero (Nat.ne_zero_of_lt hroom)
      obtain ⟨hb, hfront⟩ := List.forall_mem_cons.mp hfront
      rw [List.cons_append, readLength, if_neg (UInt8.not_lt.mpr hb),
        ih (Nat.lt_of_succ_lt_succ hroom) hfront, List.cons_append, digitsValue_more hb]
      rfl

/-- What is read ends with a byte without the high bit. -/
theorem exists_front_of_readLength {room : Nat} {bs : List UInt8} {f : LengthField}
    (h : readLength room bs = .ok (some f)) :
    ∃ front last, bs = front ++ last :: f.rest ∧ front.length < room ∧ (∀ b ∈ front, 128 ≤ b) ∧
      last < 128 := by
  induction room generalizing bs f with
  | zero => cases bs <;> cases h
  | succ room ih =>
      cases bs with
      | nil => cases h
      | cons b bs =>
          -- The byte ends the field, or it is one of the front and there is room for one less.
          rw [readLength] at h
          split at h
          · next hlast =>
              obtain rfl := Option.some.inj (Except.ok.inj h)
              exact ⟨[], b, rfl, room.succ_pos, by simp, hlast⟩
          · next hmore =>
              split at h
              · next f' hf =>
                  obtain rfl := Option.some.inj (Except.ok.inj h)
                  obtain ⟨front, last, rfl, hroom, hfront, hlast⟩ := ih hf
                  exact ⟨b :: front, last, rfl, Nat.succ_lt_succ hroom,
                    List.forall_mem_cons.mpr ⟨UInt8.not_lt.mp hmore, hfront⟩, hlast⟩
              · cases h
              · cases h

/-- No answer is given while every byte has the high bit. -/
theorem readLength_eq_none_iff {room : Nat} {bs : List UInt8} :
    readLength room bs = .ok none ↔ bs.length ≤ room ∧ ∀ b ∈ bs, 128 ≤ b := by
  induction bs generalizing room with
  | nil => cases room <;> simp [readLength]
  | cons b bs ih =>
      cases room with
      | zero => simp [readLength]
      | succ room =>
          rw [readLength, List.forall_mem_cons, List.length_cons, Nat.succ_le_succ_iff]
          split
          · next hlast =>
              have hnot : ¬ 128 ≤ b := UInt8.not_le.mpr hlast
              simp [hnot]
          · next hmore =>
              rw [← and_left_comm, and_iff_right (UInt8.not_lt.mp hmore), ← ih]
              cases readLength room bs with
              | error e => simp
              | ok found => cases found <;> simp

/-- A field is malformed when there is no room for the byte behind those that
have the high bit. -/
theorem readLength_eq_error_iff {room : Nat} {bs : List UInt8} {e : WireError} :
    readLength room bs = .error e ↔
      e = .malformedLength ∧ room < bs.length ∧ ∀ b ∈ bs.take room, 128 ≤ b := by
  induction bs generalizing room with
  | nil => cases room <;> simp [readLength]
  | cons b bs ih =>
      cases room with
      | zero => simp [readLength, eq_comm]
      | succ room =>
          rw [readLength, List.take_succ_cons, List.forall_mem_cons, List.length_cons,
            Nat.succ_lt_succ_iff]
          split
          · next hlast =>
              have hnot : ¬ 128 ≤ b := UInt8.not_le.mpr hlast
              simp [hnot]
          · next hmore =>
              rw [and_iff_right (UInt8.not_lt.mp hmore), ← ih]
              cases readLength room bs with
              | error e' => simp
              | ok found => cases found <;> simp

/-- A length field is read, whatever follows it, and nothing else is. -/
theorem decodeLength_eq_some_iff {bs : List UInt8} {f : LengthField} :
    decodeLength bs = .ok (some f) ↔
      ∃ field, IsLengthField field f.value ∧ f.used = field.length ∧ bs = field ++ f.rest := by
  constructor
  · intro h
    obtain ⟨front, last, hbs, hroom, hfront, hlast⟩ := exists_front_of_readLength h
    have hread := readLength_of_front hroom hfront hlast f.rest
    rw [← hbs] at hread
    have hf := Option.some.inj (Except.ok.inj (h.symm.trans hread))
    refine ⟨front ++ [last], ⟨front, last, rfl, hroom, hfront, hlast, ?_⟩, ?_, by simp [hbs]⟩
    · exact congrArg LengthField.value hf
    · rw [List.length_append]
      exact congrArg LengthField.used hf
  · obtain ⟨value, used, rest⟩ := f
    rintro ⟨_, ⟨front, last, rfl, hroom, hfront, hlast, hvalue⟩, hused, rfl⟩
    obtain rfl : value = digitsValue (front ++ [last]) := hvalue
    obtain rfl : used = front.length + 1 := by simpa using hused
    rw [List.append_assoc]
    exact readLength_of_front hroom hfront hlast rest

/-- No answer is given exactly as long as the field is open. -/
theorem decodeLength_eq_none_iff {bs : List UInt8} : decodeLength bs = .ok none ↔ IsOpen bs :=
  readLength_eq_none_iff

/-- The only error is a fifth byte behind four that have the high bit. -/
theorem decodeLength_eq_error_iff {bs : List UInt8} {e : WireError} :
    decodeLength bs = .error e ↔
      e = .malformedLength ∧ 5 ≤ bs.length ∧ ∀ b ∈ bs.take 4, 128 ≤ b :=
  readLength_eq_error_iff

/-- A length field that is complete stays what it is. -/
theorem decodeLength_append_of_some {bs : List UInt8} {f : LengthField}
    (h : decodeLength bs = .ok (some f)) (more : List UInt8) :
    decodeLength (bs ++ more) = .ok (some { f with rest := f.rest ++ more }) := by
  obtain ⟨field, hfield, hused, rfl⟩ := decodeLength_eq_some_iff.mp h
  exact decodeLength_eq_some_iff.mpr ⟨field, hfield, hused, List.append_assoc _ _ _⟩

/-- A length field that is malformed stays malformed, and there is no other error. -/
theorem decodeLength_append_of_error {bs : List UInt8} {e : WireError}
    (h : decodeLength bs = .error e) (more : List UInt8) :
    e = .malformedLength ∧ decodeLength (bs ++ more) = .error .malformedLength := by
  obtain ⟨rfl, hlength, hfront⟩ := decodeLength_eq_error_iff.mp h
  refine ⟨rfl, decodeLength_eq_error_iff.mpr ⟨rfl, ?_, ?_⟩⟩
  · rw [List.length_append]
    omega
  · rw [List.take_append_of_le_length (by omega)]
    exact hfront

/-! ### Writing -/

/-- A digit is a byte of its own value. -/
theorem toNat_toUInt8 {n : Nat} (h : n < 256) : n.toUInt8.toNat = n :=
  UInt8.toNat_ofNat_of_lt' h

/-- The last digit of a length. -/
theorem lengthBytes_last {n : Nat} (h : n < 128) :
    ∃ last : UInt8, lengthBytes n = [last] ∧ last < 128 ∧ n = digitsValue [last] := by
  have hvalue : n.toUInt8.toNat = n := toNat_toUInt8 (by omega)
  have hlast : n.toUInt8 < 128 := by
    rw [UInt8.lt_iff_toNat_lt, hvalue]
    exact h
  refine ⟨n.toUInt8, ?_, hlast, ?_⟩
  · rw [lengthBytes, if_pos h]
  · rw [digitsValue_last hlast, hvalue]

/-- Any other digit has the high bit set, and the quotient follows. -/
theorem lengthBytes_more {n : Nat} (h : ¬ n < 128) :
    ∃ b : UInt8, lengthBytes n = b :: lengthBytes (n / 128) ∧ 128 ≤ b ∧
      ∀ bs, n / 128 = digitsValue bs → n = digitsValue (b :: bs) := by
  have hvalue : (n % 128 + 128).toUInt8.toNat = n % 128 + 128 := toNat_toUInt8 (by omega)
  have hbit : 128 ≤ (n % 128 + 128).toUInt8 := by
    rw [UInt8.le_iff_toNat_le, hvalue]
    exact Nat.le_add_left 128 _
  refine ⟨(n % 128 + 128).toUInt8, ?_, hbit, fun bs hbs => ?_⟩
  · rw [lengthBytes, if_neg h]
  · rw [digitsValue_more hbit, hvalue, ← hbs]
    omega

/-- What is written for a number of `k + 1` digits has their form and value. -/
theorem exists_front_of_lengthBytes (k n : Nat) (h : n < 128 ^ (k + 1)) :
    ∃ front last, lengthBytes n = front ++ [last] ∧ front.length ≤ k ∧ (∀ b ∈ front, 128 ≤ b) ∧
      last < 128 ∧ n = digitsValue (front ++ [last]) := by
  induction k generalizing n with
  | zero =>
      obtain ⟨last, hbytes, hlast, hvalue⟩ := lengthBytes_last h
      exact ⟨[], last, hbytes, Nat.le_refl 0, by simp, hlast, hvalue⟩
  | succ k ih =>
      by_cases hsmall : n < 128
      · obtain ⟨last, hbytes, hlast, hvalue⟩ := lengthBytes_last hsmall
        exact ⟨[], last, hbytes, Nat.zero_le _, by simp, hlast, hvalue⟩
      · -- The quotient has one digit less.
        have hquotient : n / 128 < 128 ^ (k + 1) := Nat.div_lt_of_lt_mul (by
          rw [Nat.mul_comm]
          exact h)
        obtain ⟨front, last, hbytes, hlength, hfront, hlast, hvalue⟩ := ih (n / 128) hquotient
        obtain ⟨b, hmore, hb, hwhole⟩ := lengthBytes_more hsmall
        refine ⟨b :: front, last, ?_, Nat.succ_le_succ hlength,
          List.forall_mem_cons.mpr ⟨hb, hfront⟩, hlast, hwhole _ hvalue⟩
        rw [hmore, hbytes]
        rfl

/-- What is written is a length field. -/
theorem isLengthField_lengthBytes {n : Nat} (h : n ≤ maxRemainingLength) :
    IsLengthField (lengthBytes n) n := by
  obtain ⟨front, last, hbytes, hlength, hfront, hlast, hvalue⟩ :=
    exists_front_of_lengthBytes 3 n (Nat.lt_succ_of_le h)
  rw [hbytes]
  exact ⟨front, last, rfl, Nat.lt_succ_of_le hlength, hfront, hlast, hvalue⟩

/-- What is written for the number that a field tells is the field, or has fewer
bytes. -/
theorem lengthBytes_digitsValue {front : List UInt8} {last : UInt8}
    (hfront : ∀ b ∈ front, 128 ≤ b) (hlast : last < 128) :
    front ++ [last] = lengthBytes (digitsValue (front ++ [last])) ∨
      (lengthBytes (digitsValue (front ++ [last]))).length < front.length + 1 := by
  induction front with
  | nil =>
      have hsmall : last.toNat < 128 := UInt8.lt_iff_toNat_lt.mp hlast
      left
      rw [List.nil_append, digitsValue_last hlast, lengthBytes, if_pos hsmall]
      simp
  | cons b front ih =>
      obtain ⟨hb, hfront⟩ := List.forall_mem_cons.mp hfront
      have hlow : 128 ≤ b.toNat := UInt8.le_iff_toNat_le.mp hb
      have hhigh : b.toNat < 256 := b.toNat_lt
      have ih := ih hfront
      rw [List.cons_append, digitsValue_more hb, lengthBytes]
      generalize digitsValue (front ++ [last]) = m at ih ⊢
      split
      · -- One byte is enough, and the field goes on behind `b`.
        right
        simp
      · -- The first digit is that of `b`, and the others tell the quotient.
        rw [show (b.toNat - 128 + 128 * m) % 128 + 128 = b.toNat by omega,
          show (b.toNat - 128 + 128 * m) / 128 = m by omega]
        rcases ih with heq | hlt
        · left
          rw [← heq]
          simp
        · right
          simp only [List.length_cons]
          omega

/-- A field is the one that is written, or longer. -/
theorem IsLengthField.eq_or_lt {field : List UInt8} {n : Nat} (h : IsLengthField field n) :
    field = lengthBytes n ∨ (lengthBytes n).length < field.length := by
  obtain ⟨front, last, rfl, -, hfront, hlast, rfl⟩ := h
  rw [List.length_append]
  exact lengthBytes_digitsValue hfront hlast

/-! ### Reading and writing -/

/-- A length field is read back, whatever follows it. -/
theorem decodeLength_append {n : Nat} {field : List UInt8} (h : encodeLength n = .ok field)
    (rest : List UInt8) :
    decodeLength (field ++ rest) = .ok (some ⟨n, field.length, rest⟩) := by
  unfold encodeLength at h
  split at h
  · next hle =>
      obtain rfl := Except.ok.inj h
      exact decodeLength_eq_some_iff.mpr ⟨_, isLengthField_lengthBytes hle, rfl, rfl⟩
  · cases h

/-- A length field that is read stands in front of what is behind it. The
length can be written, and no field for it is shorter than the one that is
written. -/
theorem exists_field_of_decodeLength {bs : List UInt8} {f : LengthField}
    (h : decodeLength bs = .ok (some f)) :
    ∃ field, bs = field ++ f.rest ∧
      decodeLength field = .ok (some ⟨f.value, field.length, []⟩) ∧
      encodeLength f.value = .ok (lengthBytes f.value) ∧
      (lengthBytes f.value).length ≤ field.length := by
  obtain ⟨field, hfield, -, hbs⟩ := decodeLength_eq_some_iff.mp h
  refine ⟨field, hbs, decodeLength_eq_some_iff.mpr ⟨field, hfield, rfl, by simp⟩,
    if_pos hfield.le, ?_⟩
  rcases hfield.eq_or_lt with heq | hlt
  · exact Nat.le_of_eq (congrArg List.length heq.symm)
  · exact Nat.le_of_lt hlt

/-- Length fields are exact. A length of up to 268435455 is written as its only
shortest field, which is read back whatever follows it; a greater one is not
written, and neither is the header it stands in. Of any byte string the reader
says whether it starts with a field of at most four bytes, and what the field
tells, whether a field may go on behind it, or whether there is a fifth byte where
none may be. -/
theorem length_fields_exact :
    (∀ n ≤ maxRemainingLength, ∃ field, encodeLength n = .ok field ∧ IsLengthField field n ∧
      (∀ other, IsLengthField other n → other = field ∨ field.length < other.length) ∧
      ∀ rest, decodeLength (field ++ rest) = .ok (some ⟨n, field.length, rest⟩)) ∧
    (∀ n, maxRemainingLength < n → encodeLength n = .error (.packetTooBig n) ∧
      ∀ header : FixedHeader, header.encode n = .error (.packetTooBig n)) ∧
    (∀ (bs rest : List UInt8) (v k : Nat), decodeLength bs = .ok (some ⟨v, k, rest⟩) ↔
      ∃ front last, bs = front ++ last :: rest ∧ k = front.length + 1 ∧ k ≤ 4 ∧
        (∀ b ∈ front, 128 ≤ b) ∧ last < 128 ∧
        v = (((front ++ [last]).map fun b => b.toNat % 128).mapIdx
          fun i digit => digit * 128 ^ i).sum ∧
        v ≤ maxRemainingLength) ∧
    (∀ bs, decodeLength bs = .ok none ↔ bs.length ≤ 4 ∧ ∀ b ∈ bs, 128 ≤ b) ∧
    (∀ bs e, decodeLength bs = .error e ↔
      e = .malformedLength ∧ 5 ≤ bs.length ∧ ∀ b ∈ bs.take 4, 128 ≤ b) := by
  refine ⟨fun n hn => ?_, fun n hn => ?_, fun bs rest v k => ?_,
    fun bs => decodeLength_eq_none_iff, fun bs e => decodeLength_eq_error_iff⟩
  · have hwrite : encodeLength n = .ok (lengthBytes n) := if_pos hn
    exact ⟨lengthBytes n, hwrite, isLengthField_lengthBytes hn, fun other h => h.eq_or_lt,
      decodeLength_append hwrite⟩
  · have hbig : encodeLength n = .error (.packetTooBig n) := if_neg (Nat.not_le.mpr hn)
    refine ⟨hbig, fun header => ?_⟩
    rw [FixedHeader.encode, hbig]
    rfl
  · rw [decodeLength_eq_some_iff]
    constructor
    · rintro ⟨field, hfield, rfl, rfl⟩
      -- The bound on the value follows from the bound on the length, and is left out on the way
      -- back.
      have hle := hfield.le
      obtain ⟨front, last, rfl, hroom, hfront, hlast, hvalue⟩ := hfield
      exact ⟨front, last, by simp, by simp, by simpa using hroom, hfront, hlast,
        hvalue.trans (digitsValue_eq_sum _), hle⟩
    · rintro ⟨front, last, rfl, rfl, hroom, hfront, hlast, hvalue, -⟩
      refine ⟨front ++ [last], ⟨front, last, rfl, hroom, hfront, hlast, ?_⟩, by simp, by simp⟩
      exact hvalue.trans (digitsValue_eq_sum _).symm

/-- The first length of four bytes, and the first that is too great. -/
theorem length_fields_exact_boundary :
    2097152 ≤ maxRemainingLength ∧ encodeLength 2097152 = .ok [0x80, 0x80, 0x80, 0x01] ∧
    decodeLength ([0x80, 0x80, 0x80, 0x01] ++ [0x7F])
      = .ok (some ⟨2097152, 4, [0x7F]⟩) ∧
    maxRemainingLength < 268435456 ∧ encodeLength 268435456 = .error (.packetTooBig 268435456) := by
  have hle : 2097152 ≤ maxRemainingLength := by decide
  have hbig : maxRemainingLength < 268435456 := by decide
  have hfield : encodeLength 2097152 = .ok [0x80, 0x80, 0x80, 0x01] := by
    simp [encodeLength, hle, lengthBytes]
  obtain ⟨field, hwrite, -, -, hread⟩ := length_fields_exact.1 2097152 hle
  obtain rfl := Except.ok.inj (hfield.symm.trans hwrite)
  exact ⟨hle, hfield, hread [0x7F], hbig, (length_fields_exact.2.1 268435456 hbig).1⟩

end Mqtt
