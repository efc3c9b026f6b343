import Mqtt.Proofs.Wire.Field
import Mqtt.Proofs.Wire.Strict

/-!
# `Mqtt.Proofs.Wire.Text`: texts at the front of a byte string

Two bytes announce the length of a text, the high one first, and as many bytes stand
behind them. Bytes are missing (`LacksBytes`) or they hold the content of a field
(`HoldsField`), and the content is a text if it is strict UTF-8 without U+0000.

* `Reader.run_text_eq_ok_iff`, `Reader.run_text_eq_error_iff`: what the reader of texts
  makes of a byte string.
* `text_fields_exact`: texts are read back, nothing else is, and which of three faults is
  reported where nothing is read.
-/

set_option autoImplicit false

namespace Mqtt

/-- The number of bytes that a text announces. -/
def announced (high low : UInt8) : Nat :=
  high.toNat * 256 + low.toNat

/-- Whether a byte string starts with the announced length of `content`, then `content`,
with `rest` left behind it. -/
def HoldsField (bs content rest : List UInt8) : Prop :=
  ∃ high low, bs = high :: low :: (content ++ rest) ∧ content.length = announced high low

/-- Whether a byte string ends inside the length, or before as many bytes as it announces. -/
def LacksBytes (bs : List UInt8) : Prop :=
  bs.length < 2 ∨
    ∃ high low later, bs = high :: low :: later ∧ later.length < announced high low

/-- A byte string is too short for a word, or starts with the two bytes of one. -/
theorem short_or_cons (bs : List UInt8) :
    bs.length < 2 ∨ ∃ high low rest, bs = high :: low :: rest := by
  match bs with
  | [] | [_] => simp
  | high :: low :: rest => exact Or.inr ⟨high, low, rest, rfl⟩

/-- Every byte string lacks bytes of a field or holds the content of one. -/
theorem lacksBytes_or_holdsField (bs : List UInt8) :
    LacksBytes bs ∨ ∃ content rest, HoldsField bs content rest := by
  rcases short_or_cons bs with hshort | ⟨high, low, later, rfl⟩
  · exact Or.inl (Or.inl hshort)
  · by_cases hle : announced high low ≤ later.length
    · refine Or.inr ⟨later.take (announced high low), later.drop (announced high low), high, low,
        ?_, List.length_take_of_le hle⟩
      rw [List.take_append_drop]
    · exact Or.inl (Or.inr ⟨high, low, later, rfl, Nat.lt_of_not_le hle⟩)

/-- A word is the number that its two bytes announce, and does not overflow. -/
theorem toNat_wordOfBytes (high low : UInt8) :
    (wordOfBytes high low).toNat = announced high low := by
  have hhigh : high.toNat < 256 := high.toNat_lt
  have hlow : low.toNat < 256 := low.toNat_lt
  exact UInt16.toNat_ofNat_of_lt' (by rw [UInt16.size]; omega)

/-- The length of a field has two bytes, so the content is never too long. -/
theorem HoldsField.length_le {bs content rest : List UInt8} (h : HoldsField bs content rest) :
    content.length ≤ maxTextLength := by
  obtain ⟨high, low, -, hlength⟩ := h
  have hword := (wordOfBytes high low).toNat_lt
  rw [toNat_wordOfBytes, ← hlength] at hword
  exact Nat.le_of_lt_succ hword

/-- A text that is not too long passes the checks on texts unless it has a U+0000. -/
theorem validateText_of_le {s : String} (h : s.utf8ByteSize ≤ maxTextLength) :
    validateText s = if '\x00' ∈ s.toList then .error (.invalidString s) else .ok () := by
  rw [validateText, if_neg (Nat.not_lt.mpr h)]
  simp

namespace Reader

variable {kind : PacketKind} {bs content rest : List UInt8}

/-! ### The reader of texts -/

/-- A word that ends early is reported as a body that is too short. -/
theorem run_word_short (h : bs.length < 2) :
    (word kind).run bs = .error (.malformedBody kind) := by
  match bs, h with
  | [], _ | [_], _ => rfl
  | _ :: _ :: rest, h => exact absurd h (Nat.not_lt.mpr (Nat.le_add_left 2 rest.length))

/-- The field is blamed on the packet `kind` when bytes of it are missing, of the length
or of the content. -/
theorem run_binary_of_lacksBytes (h : LacksBytes bs) :
    (binary kind).run bs = .error (.malformedBody kind) := by
  rcases h with hshort | ⟨high, low, later, rfl, hlt⟩
  · rw [binary, StateT.run_bind, run_word_short hshort]
    rfl
  · show bytes kind (wordOfBytes high low).toNat later = _
    rw [bytes, cut?_eq, toNat_wordOfBytes, if_neg (Nat.not_le.mpr hlt)]

/-- The content is cut off, and what follows it is left. -/
theorem run_binary_of_holdsField (h : HoldsField bs content rest) :
    (binary kind).run bs = .ok (content, rest) := by
  obtain ⟨high, low, rfl, hlength⟩ := h
  show (bytes kind (wordOfBytes high low).toNat).run (content ++ rest) = _
  rw [toNat_wordOfBytes, ← hlength]
  exact reads_bytes kind content rest

/-- Missing bytes are found before the content is looked at. -/
theorem run_text_of_lacksBytes (h : LacksBytes bs) :
    (text kind).run bs = .error (.malformedBody kind) := by
  rw [text, StateT.run_bind, run_binary_of_lacksBytes h]
  rfl

/-- The content of a field is read as UTF-8, and only then checked for a U+0000. -/
theorem run_text_of_holdsField (h : HoldsField bs content rest) :
    (text kind).run bs =
      match Utf8.decode content with
      | .error fault => .error (.stringNotUtf8 fault)
      | .ok s => if '\x00' ∈ s.toList then .error (.invalidString s) else .ok (s, rest) := by
  rw [text, StateT.run_bind, run_binary_of_holdsField h]
  show (match Utf8.decode content with
    | .error fault => throw (.stringNotUtf8 fault)
    | .ok s => do
        validateText s
        return s : Reader String).run rest = _
  cases hdecode : Utf8.decode content with
  | error fault => rfl
  | ok s =>
      -- The field is no longer than its length can tell, so only a U+0000 can be at fault.
      have hsize : s.utf8ByteSize ≤ maxTextLength := by
        rw [← Utf8.length_encode, Utf8.encode_of_decode hdecode]
        exact h.length_le
      dsimp only
      rw [validateText_of_le hsize]
      split <;> rfl

/-- A text is read exactly if its own encoding is the content, without a U+0000. -/
theorem run_text_eq_ok_iff {s : String} :
    (text kind).run bs = .ok (s, rest) ↔
      HoldsField bs (Utf8.encode s) rest ∧ '\x00' ∉ s.toList := by
  constructor
  · intro h
    rcases lacksBytes_or_holdsField bs with hlacks | ⟨content, rest', hholds⟩
    · cases (run_text_of_lacksBytes hlacks).symm.trans h
    · rw [run_text_of_holdsField hholds] at h
      split at h
      · cases h
      · next hdecode =>
          split at h
          · cases h
          · next hnul =>
              obtain ⟨rfl, rfl⟩ := Prod.mk.inj (Except.ok.inj h)
              -- What was decoded has one encoding, and that is the content.
              rw [Utf8.encode_of_decode hdecode]
              exact ⟨hholds, hnul⟩
  · rintro ⟨hholds, hnul⟩
    rw [run_text_of_holdsField hholds, Utf8.decode_encode]
    exact if_neg hnul

/-- Missing bytes are at fault first, then bytes that are no UTF-8, then a U+0000. -/
theorem run_text_eq_error_iff {e : WireError} :
    (text kind).run bs = .error e ↔
      (LacksBytes bs ∧ e = .malformedBody kind) ∨
      (∃ content rest fault, HoldsField bs content rest ∧ Utf8.decode content = .error fault ∧
        e = .stringNotUtf8 fault) ∨
      ∃ s rest, HoldsField bs (Utf8.encode s) rest ∧ '\x00' ∈ s.toList ∧ e = .invalidString s := by
  constructor
  · intro h
    -- The three faults exclude one another, so the cases of the reader are those of the
    -- statement.
    rcases lacksBytes_or_holdsField bs with hlacks | ⟨content, rest, hholds⟩
    · exact Or.inl ⟨hlacks, (Except.error.inj ((run_text_of_lacksBytes hlacks).symm.trans h)).symm⟩
    · rw [run_text_of_holdsField hholds] at h
      split at h
      · next hdecode =>
          exact Or.inr (Or.inl ⟨content, rest, _, hholds, hdecode, (Except.error.inj h).symm⟩)
      · next s hdecode =>
          split at h
          · next hnul =>
              rw [← Utf8.encode_of_decode hdecode] at hholds
              exact Or.inr (Or.inr ⟨s, rest, hholds, hnul, (Except.error.inj h).symm⟩)
          · cases h
  · rintro (⟨hlacks, rfl⟩ | ⟨content, rest, fault, hholds, hdecode, rfl⟩ |
      ⟨s, rest, hholds, hnul, rfl⟩)
    · exact run_text_of_lacksBytes hlacks
    · rw [run_text_of_holdsField hholds, hdecode]
    · rw [run_text_of_holdsField hholds, Utf8.decode_encode]
      exact if_pos hnul

end Reader

/-! ### Texts outside of packets -/

section DecodeText

open Utf8

variable {bs rest : List UInt8} {s : String}

/-- A text is read exactly if the content spells its characters, and none of these is
U+0000. -/
theorem decodeText_eq_ok_iff :
    decodeText bs = .ok (s, rest) ↔
      ∃ content, HoldsField bs content rest ∧ Spells content (codes s) ∧ 0 ∉ codes s := by
  refine Reader.run_text_eq_ok_iff.trans ?_
  rw [zero_mem_codes_iff]
  constructor
  · rintro ⟨hholds, hnul⟩
    exact ⟨encode s, hholds, spells_codes_iff.mpr rfl, hnul⟩
  · rintro ⟨content, hholds, hspells, hnul⟩
    rw [spells_codes_iff.mp hspells]
    exact ⟨hholds, hnul⟩

/-- Outside of packets, missing bytes are blamed on a PUBLISH. -/
theorem decodeText_eq_malformedBody_iff :
    decodeText bs = .error (.malformedBody .publish) ↔ LacksBytes bs := by
  refine Reader.run_text_eq_error_iff.trans ?_
  simp

/-- The fault of the content is passed on as it was found. -/
theorem decodeText_eq_stringNotUtf8_iff {fault : Fault} :
    decodeText bs = .error (.stringNotUtf8 fault) ↔
      ∃ content rest, HoldsField bs content rest ∧ decode content = .error fault := by
  refine Reader.run_text_eq_error_iff.trans ?_
  simp

/-- A U+0000 is reported with the text that it was read in, and only where the whole
content is strict. -/
theorem decodeText_eq_invalidString_iff :
    decodeText bs = .error (.invalidString s) ↔
      ∃ content rest, HoldsField bs content rest ∧ Spells content (codes s) ∧ 0 ∈ codes s := by
  rw [zero_mem_codes_iff]
  constructor
  · intro h
    obtain ⟨⟨rest, hholds⟩, hnul⟩ :
        (∃ rest, HoldsField bs (encode s) rest) ∧ '\x00' ∈ s.toList := by
      simpa using Reader.run_text_eq_error_iff.mp h
    exact ⟨encode s, rest, hholds, spells_codes_iff.mpr rfl, hnul⟩
  · rintro ⟨content, rest, hholds, hspells, hnul⟩
    rw [← spells_codes_iff.mp hspells] at hholds
    exact Reader.run_text_eq_error_iff.mpr (Or.inr (Or.inr ⟨s, rest, hholds, hnul, rfl⟩))

/-- A field announces at most 65535 bytes, which are not too many. -/
theorem decodeText_ne_stringTooBig (length : Nat) :
    decodeText bs ≠ .error (.stringTooBig length) := by
  intro h
  simpa using Reader.run_text_eq_error_iff.mp h

/-- Text fields are exact. Every text that passes the checks is written, and read back
whatever follows it. A byte string is read exactly if it holds the content of a field and
the content is strict UTF-8 without U+0000; the text is then the one that the content
spells, and writing it gives the bytes that were read. Otherwise missing bytes are
reported first, then content that is not strict UTF-8, with or without a U+0000 in it,
then a U+0000. No text that is read is called too long. -/
theorem text_fields_exact :
    (∀ s rest, validateText s = .ok () →
      ∃ field, textField s = .ok field ∧ decodeText (field ++ rest) = .ok (s, rest)) ∧
    (∀ bs, (∃ s rest, decodeText bs = .ok (s, rest)) ↔
      ∃ content rest ns, HoldsField bs content rest ∧ Spells content ns ∧ 0 ∉ ns) ∧
    (∀ bs s rest, decodeText bs = .ok (s, rest) →
      ∃ content field, HoldsField bs content rest ∧ Spells content (codes s) ∧
        textField s = .ok field ∧ bs = field ++ rest) ∧
    (∀ bs, decodeText bs = .error (.malformedBody .publish) ↔ LacksBytes bs) ∧
    (∀ bs, (∃ fault, decodeText bs = .error (.stringNotUtf8 fault)) ↔
      ∃ content rest, HoldsField bs content rest ∧ ¬ ∃ ns, Spells content ns) ∧
    (∀ bs s, decodeText bs = .error (.invalidString s) ↔
      ∃ content rest, HoldsField bs content rest ∧ Spells content (codes s) ∧ 0 ∈ codes s) ∧
    ∀ bs length, decodeText bs ≠ .error (.stringTooBig length) := by
  refine ⟨fun s rest hvalid => ?_, fun bs => ?_, fun bs s rest h => ?_,
    fun bs => decodeText_eq_malformedBody_iff, fun bs => ?_,
    fun bs s => decodeText_eq_invalidString_iff, fun bs => decodeText_ne_stringTooBig⟩
  -- What passes the checks is written, and read back.
  · have hfield : textField s = .ok (wordBytes s.utf8ByteSize.toUInt16 ++ encode s) := by
      rw [textField, hvalid]
      rfl
    exact ⟨_, hfield, Reader.reads_text .publish hfield rest⟩
  -- What is read, and what is made of it.
  · constructor
    · rintro ⟨s, rest, h⟩
      obtain ⟨content, hholds, hspells, hzero⟩ := decodeText_eq_ok_iff.mp h
      exact ⟨content, rest, codes s, hholds, hspells, hzero⟩
    · rintro ⟨content, rest, ns, hholds, hspells, hzero⟩
      obtain ⟨s, -, rfl⟩ := spells_iff.mp hspells
      exact ⟨s, rest, decodeText_eq_ok_iff.mpr ⟨content, hholds, hspells, hzero⟩⟩
  · obtain ⟨content, hholds, hspells, -⟩ := decodeText_eq_ok_iff.mp h
    obtain ⟨field, hfield, hbs⟩ := Reader.eq_append_of_text h
    exact ⟨content, field, hholds, hspells, hfield, hbs⟩
  -- The reader of characters finds a fault in just the content that is not strict.
  · constructor
    · rintro ⟨fault, h⟩
      obtain ⟨content, rest, hholds, hdecode⟩ := decodeText_eq_stringNotUtf8_iff.mp h
      exact ⟨content, rest, hholds, exists_decode_error_iff.mp ⟨fault, hdecode⟩⟩
    · rintro ⟨content, rest, hholds, hspells⟩
      obtain ⟨fault, hdecode⟩ := exists_decode_error_iff.mpr hspells
      exact ⟨fault, decodeText_eq_stringNotUtf8_iff.mpr ⟨content, rest, hholds, hdecode⟩⟩

/-- A text of four characters, one of each length, with a byte behind it. -/
theorem text_fields_exact_lengths :
    validateText "aé€𝄞" = .ok () ∧
    textField "aé€𝄞"
      = .ok [0, 10, 0x61, 0xC3, 0xA9, 0xE2, 0x82, 0xAC, 0xF0, 0x9D, 0x84, 0x9E] ∧
    decodeText [0, 10, 0x61, 0xC3, 0xA9, 0xE2, 0x82, 0xAC, 0xF0, 0x9D, 0x84, 0x9E, 0x7F]
      = .ok ("aé€𝄞", [0x7F]) ∧
    Spells [0x61, 0xC3, 0xA9, 0xE2, 0x82, 0xAC, 0xF0, 0x9D, 0x84, 0x9E]
      [0x61, 0xE9, 0x20AC, 0x1D11E] := by
  have hvalid : validateText "aé€𝄞" = .ok () := rfl
  have hfield : textField "aé€𝄞"
      = .ok [0, 10, 0x61, 0xC3, 0xA9, 0xE2, 0x82, 0xAC, 0xF0, 0x9D, 0x84, 0x9E] := rfl
  obtain ⟨field, hwrite, hread⟩ := text_fields_exact.1 "aé€𝄞" [0x7F] hvalid
  obtain rfl := Except.ok.inj (hfield.symm.trans hwrite)
  obtain ⟨content, -, ⟨high, low, hbytes, hlength⟩, hspells, -⟩ :=
    text_fields_exact.2.2.1 _ _ _ hread
  -- The content is what stands between the length and the last byte.
  obtain rfl : [0x61, 0xC3, 0xA9, 0xE2, 0x82, 0xAC, 0xF0, 0x9D, 0x84, 0x9E] = content :=
    List.append_cancel_right (List.cons.inj (List.cons.inj hbytes).2).2
  exact ⟨hvalid, hfield, hread, hspells⟩

/-- A byte that starts no character is reported, and not the U+0000 before it. -/
example : decodeText [0, 3, 0x00, 0xC3, 0x28] = .error (.stringNotUtf8 (.invalid 1 1)) := by
  cbv

end DecodeText

end Mqtt
