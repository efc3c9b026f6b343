import Mqtt.Wire.Error

/-!
# `Mqtt.Wire.Length`: the length field of a packet

The length of a packet's body is written in base 128, the lowest digit
first, and every byte but the last has its high bit set. A field has at
most four bytes.

* `encodeLength` writes the shortest field for a length.
* `decodeLength` reads the field at the front of a byte string, which
  may end inside it.
* `LengthField.length_lt`: reading a field uses up at least one byte.
-/

set_option autoImplicit false

namespace Mqtt

/-- The greatest length that four digits can tell. -/
def maxRemainingLength : Nat := 268435455

/-- The digits of `n` in base 128, the lowest first. -/
def lengthBytes (n : Nat) : List UInt8 :=
  if n < 128 then [n.toUInt8] else (n % 128 + 128).toUInt8 :: lengthBytes (n / 128)
termination_by n
decreasing_by omega

/-- The length field of a body of `n` bytes. -/
def encodeLength (n : Nat) : Except WireError (List UInt8) :=
  if n ≤ maxRemainingLength then .ok (lengthBytes n) else .error (.packetTooBig n)

/-- A length field that was read. -/
structure LengthField where
  value : Nat
  /-- How many bytes the field has. -/
  used : Nat
  /-- The bytes behind the field. -/
  rest : List UInt8
  deriving DecidableEq, Repr

/-- Puts a digit in front of a field. -/
def LengthField.push (digit : Nat) (f : LengthField) : LengthField :=
  ⟨digit + 128 * f.value, f.used + 1, f.rest⟩

/-- Reads a length field of at most `room` bytes. The answer is none when
the bytes end inside the field. -/
def readLength : (room : Nat) → List UInt8 → Except WireError (Option LengthField)
  | _, [] => .ok none
  | 0, _ :: _ => .error .malformedLength
  | room + 1, b :: bs =>
      if b < 128 then .ok (some ⟨b.toNat, 1, bs⟩)
      else
        match readLength room bs with
        | .ok (some f) => .ok (some (f.push (b.toNat - 128)))
        | .ok none => .ok none
        | .error e => .error e

/-- Reads the length field at the front of a byte string. -/
def decodeLength (bs : List UInt8) : Except WireError (Option LengthField) :=
  readLength 4 bs

/-- A length field takes at least one byte. -/
theorem length_lt_of_readLength {room : Nat} {bs : List UInt8} {f : LengthField}
    (h : readLength room bs = .ok (some f)) : f.rest.length < bs.length := by
  induction room generalizing bs f with
  | zero => cases bs <;> simp [readLength] at h
  | succ room ih =>
      cases bs with
      | nil => simp [readLength] at h
      | cons b bs =>
          simp only [readLength] at h
          split at h
          · cases h
            simp
          · split at h
            · next hf =>
                cases h
                have := ih hf
                simp only [LengthField.push, List.length_cons]
                omega
            · cases h
            · cases h

/-- Reading a length field uses up at least one byte. -/
theorem length_lt_of_decodeLength {bs : List UInt8} {f : LengthField}
    (h : decodeLength bs = .ok (some f)) : f.rest.length < bs.length :=
  length_lt_of_readLength h

end Mqtt
