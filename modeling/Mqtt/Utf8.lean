/-!
# `Mqtt.Utf8`: strict UTF-8 with the place of the first fault

Text travels as UTF-8. `encode` writes a string, `decode` reads one
back and is strict: no overlong form, no surrogate, nothing above
U+10FFFF. When the bytes are no UTF-8, `Fault` says where the first bad
sequence starts and how long it is.

* `length_encode`: a string takes `utf8ByteSize` bytes.
* `front_shortens`: reading the character at the front uses up bytes.
-/

set_option autoImplicit false

namespace Mqtt.Utf8

/-- Why a byte string is not UTF-8. -/
inductive Fault where
  /-- The `length` bytes from `index` on start no character, whatever follows them. -/
  | invalid (length index : Nat)
  /-- The bytes end inside the character that starts at `index`. -/
  | incomplete (index : Nat)
  deriving DecidableEq, Repr

/-- The sentence that describes a fault. -/
def Fault.message : Fault → String
  | .invalid length index =>
      "invalid utf-8 sequence of " ++ toString length ++ " bytes from index " ++ toString index
  | .incomplete index => "incomplete utf-8 byte sequence from index " ++ toString index

/-- The bytes of a string. -/
def encode (s : String) : List UInt8 :=
  s.toList.flatMap String.utf8EncodeChar

/-- A string takes as many bytes as its UTF-8 size says. -/
theorem length_encode (s : String) : (encode s).length = s.utf8ByteSize := by
  conv => rhs; rw [← String.ofList_toList (s := s)]
  rw [← String.size_toByteArray, String.toByteArray_ofList, List.utf8Encode,
    List.size_toByteArray, encode]

/-- What the first byte of a character announces. -/
structure Lead where
  /-- The bits of the character that the first byte carries. -/
  bits : Nat
  /-- How many bytes follow. -/
  owed : Nat
  /-- The least that the second byte may be. -/
  low : UInt8
  /-- The greatest that the second byte may be. -/
  high : UInt8
  deriving DecidableEq, Repr

/-- Reads a first byte. The ranges of the second byte keep out overlong
forms, surrogates and values above U+10FFFF. -/
def Lead.ofByte? (a : UInt8) : Option Lead :=
  if a < 0x80 then some ⟨a.toNat, 0, 0x80, 0xBF⟩
  else if a < 0xC2 then none
  else if a < 0xE0 then some ⟨a.toNat - 0xC0, 1, 0x80, 0xBF⟩
  else if a = 0xE0 then some ⟨0, 2, 0xA0, 0xBF⟩
  else if a = 0xED then some ⟨0xD, 2, 0x80, 0x9F⟩
  else if a < 0xF0 then some ⟨a.toNat - 0xE0, 2, 0x80, 0xBF⟩
  else if a = 0xF0 then some ⟨0, 3, 0x90, 0xBF⟩
  else if a < 0xF4 then some ⟨a.toNat - 0xF0, 3, 0x80, 0xBF⟩
  else if a = 0xF4 then some ⟨4, 3, 0x80, 0x8F⟩
  else none

/-- What stands at the front of a byte string. -/
inductive Front where
  /-- Nothing: the bytes are at an end. -/
  | done
  /-- A character, and the bytes behind it. -/
  | char (c : Char) (rest : List UInt8)
  /-- This many bytes that start no character. -/
  | bad (length : Nat)
  /-- The start of a character that the bytes do not finish. -/
  | cut
  deriving DecidableEq, Repr

/-- Reads the `owed` bytes that a character still lacks after `read`
bytes gave it the bits `bits`. The next one lies between `low` and
`high`, those after it are any continuing bytes. -/
def follow (read bits : Nat) : (owed : Nat) → (low high : UInt8) → List UInt8 → Front
  | 0, _, _, bs => .char (Char.ofNat bits) bs
  | _ + 1, _, _, [] => .cut
  | owed + 1, low, high, b :: bs =>
      if low ≤ b ∧ b ≤ high then
        follow (read + 1) (bits * 64 + (b.toNat - 0x80)) owed 0x80 0xBF bs
      else .bad read

/-- Reads the character at the front of a byte string. -/
def front : List UInt8 → Front
  | [] => .done
  | a :: bs =>
      match Lead.ofByte? a with
      | none => .bad 1
      | some lead => follow 1 lead.bits lead.owed lead.low lead.high bs

/-- What follows a character is no longer than what it was read from. -/
theorem follow_length_le {read bits owed : Nat} {low high : UInt8} {bs rest : List UInt8}
    {c : Char} (h : follow read bits owed low high bs = .char c rest) :
    rest.length ≤ bs.length := by
  induction owed generalizing read bits low high bs with
  | zero =>
      simp only [follow, Front.char.injEq] at h
      simp [h.2]
  | succ owed ih =>
      cases bs with
      | nil => simp [follow] at h
      | cons b bs =>
          simp only [follow] at h
          split at h
          · have := ih h
            simp only [List.length_cons]
            omega
          · cases h

/-- Reading the character at the front uses up at least one byte. -/
theorem front_shortens {bs rest : List UInt8} {c : Char} (h : front bs = .char c rest) :
    rest.length < bs.length := by
  cases bs with
  | nil => simp [front] at h
  | cons a bs =>
      simp only [front] at h
      split at h
      · cases h
      · have := follow_length_le h
        simp only [List.length_cons]
        omega

/-- Reads characters to the end of `bs`, which starts at `index`; `seen`
holds the characters before it, the last one first. -/
def decodeFrom (index : Nat) (seen : List Char) (bs : List UInt8) : Except Fault String :=
  match h : front bs with
  | .done => .ok (String.ofList seen.reverse)
  | .char c rest =>
      have : rest.length < bs.length := front_shortens h
      decodeFrom (index + c.utf8Size) (c :: seen) rest
  | .bad length => .error (.invalid length index)
  | .cut => .error (.incomplete index)
termination_by bs.length

/-- Reads a whole byte string as text, or says what is wrong with it first. -/
def decode (bs : List UInt8) : Except Fault String :=
  decodeFrom 0 [] bs

end Mqtt.Utf8
