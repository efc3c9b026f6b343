import Mqtt.Proofs.Wire.Utf8
import Mqtt.Wire.Field

/-!
# `Mqtt.Proofs.Wire.Field`: reading fields and writing them are inverse

`Reader.Reads` says that a reader takes a value off the front of any byte
string that starts with the given bytes. Readers that are run one after the
other take their bytes one after the other.

* `Reader.reads_word`, `Reader.reads_text`: words and texts are read back.

The other way round, a value that was read tells the bytes that it was read
from.

* `Reader.eq_append_of_word`, `Reader.eq_append_of_text`: they are those that
  write the word or the text.
-/

set_option autoImplicit false

namespace Mqtt

namespace Reader

variable {α β : Type}

/-- Whether a reader takes `a` off whatever starts with `bytes`. -/
def Reads (r : Reader α) (bytes : List UInt8) (a : α) : Prop :=
  ∀ rest, r.run (bytes ++ rest) = .ok (a, rest)

/-- What is read after a field is read from what is behind it. -/
theorem Reads.bind_run {r : Reader α} {bytes : List UInt8} {a : α} (h : Reads r bytes a)
    (f : α → Reader β) (rest : List UInt8) :
    (r >>= f).run (bytes ++ rest) = (f a).run rest := by
  rw [StateT.run_bind, h rest]
  rfl

/-- Fields are read one after the other. -/
theorem Reads.bind {r : Reader α} {bytes later : List UInt8} {a : α} {b : β} {f : α → Reader β}
    (h : Reads r bytes a) (h' : Reads (f a) later b) : Reads (r >>= f) (bytes ++ later) b := by
  intro rest
  rw [List.append_assoc, h.bind_run]
  exact h' rest

/-- A reader that reads nothing leaves what there is. -/
theorem reads_pure (a : α) : Reads (pure a : Reader α) [] a :=
  fun _ => rfl

/-- What is made of the last field is read with it. -/
theorem Reads.map {r : Reader α} {bytes : List UInt8} {a : α} (h : Reads r bytes a) (f : α → β) :
    Reads (do return f (← r)) bytes (f a) := by
  intro rest
  rw [h.bind_run fun a => pure (f a)]
  rfl

/-- A check that succeeds reads nothing. -/
theorem reads_lift {e : Except WireError α} {a : α} (h : e = .ok a) :
    Reads (liftM e : Reader α) [] a := by
  intro rest
  rw [h]
  rfl

/-- A byte is read back. -/
theorem reads_byte (kind : PacketKind) (b : UInt8) : Reads (byte kind) [b] b :=
  fun _ => rfl

/-- A number below 65536 is that of its two bytes. -/
theorem wordOfBytes_wordBytes (n : UInt16) :
    wordOfBytes (n.toNat / 256).toUInt8 (n.toNat % 256).toUInt8 = n := by
  have hlt : n.toNat < 65536 := n.toNat_lt
  apply UInt16.toNat_inj.mp
  simp only [wordOfBytes, Nat.toUInt16, Nat.toUInt8, UInt16.toNat_ofNat', UInt8.toNat_ofNat']
  omega

/-- A word is read back, its high byte first. -/
theorem reads_word (kind : PacketKind) (n : UInt16) : Reads (word kind) (wordBytes n) n := by
  intro rest
  show Except.ok (wordOfBytes (n.toNat / 256).toUInt8 (n.toNat % 256).toUInt8, rest) = _
  rw [wordOfBytes_wordBytes]

/-- Bytes of a known number are read back. -/
theorem reads_bytes (kind : PacketKind) (bs : List UInt8) :
    Reads (bytes kind bs.length) bs bs := by
  intro rest
  have hcut : cut? bs.length (bs ++ rest) = some (bs, rest) := by
    rw [cut?_eq, if_pos (by rw [List.length_append]; omega), List.take_left, List.drop_left]
  simp [bytes, StateT.run, hcut]

/-- Binary data is read back from its length and its bytes. -/
theorem reads_binary (kind : PacketKind) (bs : List UInt8) (h : bs.length ≤ maxTextLength) :
    Reads (binary kind) (wordBytes bs.length.toUInt16 ++ bs) bs := by
  have hlength : bs.length.toUInt16.toNat = bs.length :=
    UInt16.toNat_ofNat_of_lt' (Nat.lt_succ_of_le h)
  refine (reads_word kind bs.length.toUInt16).bind ?_
  rw [hlength]
  exact reads_bytes kind bs

/-- What can be written as a text passes the checks on texts. -/
theorem validateText_of_textField {s : String} {bytes : List UInt8} (h : textField s = .ok bytes) :
    validateText s = .ok () ∧ s.utf8ByteSize ≤ maxTextLength ∧
      bytes = wordBytes s.utf8ByteSize.toUInt16 ++ Utf8.encode s := by
  unfold textField at h
  cases hvalid : validateText s with
  | error e =>
      rw [hvalid] at h
      cases h
  | ok =>
      rw [hvalid] at h
      refine ⟨rfl, ?_, (Except.ok.inj h).symm⟩
      unfold validateText at hvalid
      split at hvalid
      · cases hvalid
      · omega

/-- A text is read back from its field. -/
theorem reads_text (kind : PacketKind) {s : String} {bytes : List UInt8}
    (h : textField s = .ok bytes) : Reads (text kind) bytes s := by
  obtain ⟨hvalid, hsize, rfl⟩ := validateText_of_textField h
  -- The length is that of the bytes, not of the characters.
  rw [← Utf8.length_encode] at hsize ⊢
  intro rest
  unfold text
  rw [(reads_binary kind (Utf8.encode s) hsize).bind_run, Utf8.decode_encode]
  dsimp only
  rw [hvalid]
  rfl

/-! ### What is read is what is written -/

/-- What was read last was read from what was behind the first field. -/
theorem run_bind_eq_ok {r : Reader α} {f : α → Reader β} {bs rest : List UInt8} {b : β}
    (h : (r >>= f).run bs = .ok (b, rest)) :
    ∃ a later, r.run bs = .ok (a, later) ∧ (f a).run later = .ok (b, rest) := by
  rw [StateT.run_bind] at h
  cases hr : r.run bs with
  | error e =>
      rw [hr] at h
      cases h
  | ok result =>
      rw [hr] at h
      exact ⟨result.1, result.2, rfl, h⟩

/-- What is made of the last field is made of what was read. -/
theorem run_map_eq_ok {r : Reader α} {f : α → β} {bs rest : List UInt8} {b : β}
    (h : (do return f (← r) : Reader β).run bs = .ok (b, rest)) :
    ∃ a, r.run bs = .ok (a, rest) ∧ f a = b := by
  obtain ⟨a, later, hr, hpure⟩ := run_bind_eq_ok h
  obtain ⟨rfl, rfl⟩ := Prod.mk.inj (Except.ok.inj hpure)
  exact ⟨a, hr, rfl⟩

/-- A check that succeeds reads nothing. -/
theorem run_lift_eq_ok {e : Except WireError α} {bs rest : List UInt8} {a : α}
    (h : (liftM e : Reader α).run bs = .ok (a, rest)) : e = .ok a ∧ bs = rest := by
  cases e with
  | error e => cases h
  | ok a' =>
      obtain ⟨rfl, rfl⟩ := Prod.mk.inj (Except.ok.inj h)
      exact ⟨rfl, rfl⟩

/-- A byte that was read stood in front. -/
theorem eq_cons_of_byte {kind : PacketKind} {bs rest : List UInt8} {b : UInt8}
    (h : (byte kind).run bs = .ok (b, rest)) : bs = b :: rest := by
  cases bs with
  | nil => cases h
  | cons b' bs =>
      obtain ⟨rfl, rfl⟩ := Prod.mk.inj (Except.ok.inj h)
      rfl

/-- The bytes of a word are those that it was made of. -/
theorem wordBytes_wordOfBytes (high low : UInt8) :
    wordBytes (wordOfBytes high low) = [high, low] := by
  have hhigh : high.toNat < 256 := high.toNat_lt
  have hlow : low.toNat < 256 := low.toNat_lt
  have hword : (wordOfBytes high low).toNat = high.toNat * 256 + low.toNat :=
    UInt16.toNat_ofNat_of_lt' (by
      rw [UInt16.size]
      omega)
  rw [wordBytes, hword, show (high.toNat * 256 + low.toNat) / 256 = high.toNat by omega,
    show (high.toNat * 256 + low.toNat) % 256 = low.toNat by omega]
  simp only [Nat.toUInt8, UInt8.ofNat_toNat]

/-- A word that was read stood in front, written as it would be again. -/
theorem eq_append_of_word {kind : PacketKind} {bs rest : List UInt8} {n : UInt16}
    (h : (word kind).run bs = .ok (n, rest)) : bs = wordBytes n ++ rest := by
  obtain ⟨high, later, hhigh, h⟩ := run_bind_eq_ok h
  obtain ⟨low, hlow, rfl⟩ := run_map_eq_ok h
  rw [eq_cons_of_byte hhigh, eq_cons_of_byte hlow, wordBytes_wordOfBytes]
  rfl

/-- Bytes that were read stood in front, in the number that was asked for. -/
theorem eq_append_of_bytes {kind : PacketKind} {n : Nat} {bs taken rest : List UInt8}
    (h : (bytes kind n).run bs = .ok (taken, rest)) : bs = taken ++ rest ∧ taken.length = n := by
  have hcut := cut?_eq n bs
  by_cases hle : n ≤ bs.length
  · rw [if_pos hle] at hcut
    simp only [bytes, StateT.run, hcut] at h
    obtain ⟨rfl, rfl⟩ := Prod.mk.inj (Except.ok.inj h)
    exact ⟨(List.take_append_drop n bs).symm, List.length_take_of_le hle⟩
  · rw [if_neg hle] at hcut
    simp only [bytes, StateT.run, hcut] at h
    cases h

/-- Binary data stands behind its length. -/
theorem eq_append_of_binary {kind : PacketKind} {bs taken rest : List UInt8}
    (h : (binary kind).run bs = .ok (taken, rest)) :
    bs = wordBytes taken.length.toUInt16 ++ taken ++ rest := by
  obtain ⟨n, later, hword, hbytes⟩ := run_bind_eq_ok h
  obtain ⟨rfl, hlength⟩ := eq_append_of_bytes hbytes
  have hn : taken.length.toUInt16 = n := by
    rw [hlength]
    exact UInt16.ofNat_toNat
  rw [eq_append_of_word hword, hn, List.append_assoc]

/-- A text that is read can be written, as the bytes that it was read from. -/
theorem eq_append_of_text {kind : PacketKind} {bs rest : List UInt8} {s : String}
    (h : (text kind).run bs = .ok (s, rest)) :
    ∃ field, textField s = .ok field ∧ bs = field ++ rest := by
  obtain ⟨taken, later, hbinary, h⟩ := run_bind_eq_ok h
  cases hdecode : Utf8.decode taken with
  | error fault =>
      rw [hdecode] at h
      cases h
  | ok s' =>
      rw [hdecode] at h
      obtain ⟨_, last, hcheck, hpure⟩ := run_bind_eq_ok h
      obtain ⟨hvalid, rfl⟩ := run_lift_eq_ok hcheck
      obtain ⟨rfl, rfl⟩ := Prod.mk.inj (Except.ok.inj hpure)
      -- The bytes of the text are those that it is written with.
      have htaken : Utf8.encode s' = taken := Utf8.encode_of_decode hdecode
      refine ⟨wordBytes s'.utf8ByteSize.toUInt16 ++ Utf8.encode s', ?_, ?_⟩
      · rw [textField, hvalid]
        rfl
      · rw [eq_append_of_binary hbinary, ← Utf8.length_encode, htaken]

end Reader

end Mqtt
