import Mqtt.Wire.Error

/-!
# `Mqtt.Wire.Field`: the fields of a packet body

Words, texts and binary data as they stand in a packet body, with a
writer and a reader for each. Words have two bytes, the high one first;
texts and binary data start with a word that tells their length.

A `Reader` takes its field from the front of a body and hands on what is
left. A body that ends too early is reported as malformed, with the kind
of the packet that is being read.

* `cut?_eq`: cutting off a number of bytes is `take` and `drop`.
-/

set_option autoImplicit false

namespace Mqtt

/-- The most bytes that a text or binary field can hold. -/
def maxTextLength : Nat := 65535

/-- The two bytes of a word, the high one first. -/
def wordBytes (n : UInt16) : List UInt8 :=
  [(n.toNat / 256).toUInt8, (n.toNat % 256).toUInt8]

/-- The word with the given bytes. -/
def wordOfBytes (high low : UInt8) : UInt16 :=
  (high.toNat * 256 + low.toNat).toUInt16

/-- Checks a text: it has at most 65535 bytes and no U+0000. -/
def validateText (s : String) : Except WireError Unit :=
  if maxTextLength < s.utf8ByteSize then .error (.stringTooBig s.utf8ByteSize)
  else if s.toList.contains '\x00' then .error (.invalidString s)
  else .ok ()

/-- The field that holds binary data. -/
def binaryField (bs : List UInt8) : Except WireError (List UInt8) :=
  if maxTextLength < bs.length then .error (.stringTooBig bs.length)
  else .ok (wordBytes bs.length.toUInt16 ++ bs)

/-- The field that holds a text. -/
def textField (s : String) : Except WireError (List UInt8) := do
  validateText s
  return wordBytes s.utf8ByteSize.toUInt16 ++ Utf8.encode s

/-- Moves `n` bytes from the front of `bs` onto the reversed `seen`. -/
def cutFrom (seen : List UInt8) : (n : Nat) → List UInt8 → Option (List UInt8 × List UInt8)
  | 0, bs => some (seen.reverse, bs)
  | _ + 1, [] => none
  | n + 1, b :: bs => cutFrom (b :: seen) n bs

/-- Cuts off the first `n` bytes, if there are so many. -/
def cut? (n : Nat) (bs : List UInt8) : Option (List UInt8 × List UInt8) :=
  cutFrom [] n bs

/-- The bytes are moved one by one, so as many are cut off as there are to be moved. -/
theorem cutFrom_eq (seen : List UInt8) (n : Nat) (bs : List UInt8) :
    cutFrom seen n bs
      = if n ≤ bs.length then some (seen.reverse ++ bs.take n, bs.drop n) else none := by
  induction n generalizing seen bs with
  | zero => simp [cutFrom]
  | succ n ih =>
      cases bs with
      | nil => simp [cutFrom]
      | cons b bs => simp [cutFrom, ih]

/-- Cutting off bytes takes the first ones and drops them from the rest. -/
theorem cut?_eq (n : Nat) (bs : List UInt8) :
    cut? n bs = if n ≤ bs.length then some (bs.take n, bs.drop n) else none := by
  simp [cut?, cutFrom_eq]

/-- Takes a value from the front of a body. -/
abbrev Reader (α : Type) := StateT (List UInt8) (Except WireError) α

namespace Reader

/-- Reads a byte of a packet of the given kind. -/
def byte (kind : PacketKind) : Reader UInt8 := fun
  | [] => .error (.malformedBody kind)
  | b :: bs => .ok (b, bs)

/-- Reads a word. -/
def word (kind : PacketKind) : Reader UInt16 := do
  let high ← byte kind
  let low ← byte kind
  return wordOfBytes high low

/-- Reads the next `n` bytes. -/
def bytes (kind : PacketKind) (n : Nat) : Reader (List UInt8) := fun bs =>
  match cut? n bs with
  | none => .error (.malformedBody kind)
  | some found => .ok found

/-- Reads binary data. -/
def binary (kind : PacketKind) : Reader (List UInt8) := do
  let length ← word kind
  bytes kind length.toNat

/-- Reads a text. Bytes that are no UTF-8 are at fault before a U+0000 is. -/
def text (kind : PacketKind) : Reader String := do
  match Utf8.decode (← binary kind) with
  | .error fault => throw (.stringNotUtf8 fault)
  | .ok s =>
      validateText s
      return s

/-- Reads all that is left. -/
def rest : Reader (List UInt8) := fun bs => .ok (bs, [])

end Reader

/-- Reads the text at the front of a byte string, outside of any packet;
missing bytes are blamed on a PUBLISH. -/
def decodeText (bs : List UInt8) : Except WireError (String × List UInt8) :=
  (Reader.text .publish).run bs

end Mqtt
