import Mqtt.Proofs.Wire.Field
import Mqtt.Wire.Encode

/-!
# `Mqtt.Proofs.Wire.Fault`: what keeps a packet from being written

Some fields of a body start with their length: texts, and the payload of a will
(`Packet.sizedFields`). Nothing else in a body can be at fault. Once these are
written, only the length of the whole body can be too great.

* `Writes`: what becomes of a row of such fields. The first one at fault is reported;
  without a fault the bytes have a known number. `Packet.writes_body` says so of every
  kind of packet.
* `Packet.encode_eq_error_iff`, `Packet.exists_encode_iff`: a packet is written unless
  it has a fault (`Packet.fault?`), and then the fault is reported.
* `Packet.bodySize_le`: no packet but a PUBLISH is too long.
* `Packet.encode_all_or_nothing`: the faults in full, and what is left in a buffer.
-/

set_option autoImplicit false

namespace Mqtt

/-- A field of a body that starts with its length. -/
inductive SizedField where
  | text (s : String)
  | binary (bytes : List UInt8)
  deriving DecidableEq, Repr

namespace SizedField

/-- How many bytes stand behind the length. -/
def size : SizedField → Nat
  | text s => s.utf8ByteSize
  | binary bytes => bytes.length

/-- What keeps a field from being written. Its length is looked at first. -/
def fault? : SizedField → Option WireError
  | text s =>
      if maxTextLength < s.utf8ByteSize then some (.stringTooBig s.utf8ByteSize)
      else if '\x00' ∈ s.toList then some (.invalidString s)
      else none
  | binary bytes =>
      if maxTextLength < bytes.length then some (.stringTooBig bytes.length) else none

/-- How many bytes a row of fields takes, with their lengths. -/
def total : List SizedField → Nat
  | [] => 0
  | f :: fields => f.size + 2 + total fields

/-- Rows of fields take as much space together as each on its own. -/
theorem total_append (fields more : List SizedField) :
    total (fields ++ more) = total fields + total more := by
  induction fields with
  | nil => exact (Nat.zero_add _).symm
  | cons f fields ih =>
      rw [List.cons_append, total, total, ih]
      omega

/-- The length in front of a field takes two bytes. -/
theorem total_singleton (f : SizedField) : total [f] = f.size + 2 :=
  rfl

/-- A text can be written if it is not too long and has no U+0000. -/
theorem fault?_text_eq_none_iff {s : String} :
    (text s).fault? = none ↔ s.utf8ByteSize ≤ maxTextLength ∧ '\x00' ∉ s.toList := by
  unfold fault?
  by_cases hlong : maxTextLength < s.utf8ByteSize
  · simp [hlong, Nat.not_le.mpr hlong]
  · by_cases hnul : '\x00' ∈ s.toList
    · simp [hlong, hnul]
    · simpa [hlong, hnul] using Nat.le_of_not_lt hlong

/-- Binary data can be written if it is not too long. -/
theorem fault?_binary_eq_none_iff {bytes : List UInt8} :
    (binary bytes).fault? = none ↔ bytes.length ≤ maxTextLength := by
  unfold fault?
  by_cases hlong : maxTextLength < bytes.length
  · simp [hlong]
  · simpa [hlong] using Nat.le_of_not_lt hlong

/-- A field that can be written is not too long, whatever is in it. -/
theorem size_le_of_fault? {f : SizedField} (h : f.fault? = none) : f.size ≤ maxTextLength := by
  cases f with
  | text s => exact (fault?_text_eq_none_iff.mp h).1
  | binary bytes => exact fault?_binary_eq_none_iff.mp h

/-- Fields that can be written are bounded by their number. -/
theorem total_le {fields : List SizedField} (h : ∀ f ∈ fields, f.fault? = none) :
    total fields ≤ 65537 * fields.length := by
  induction fields with
  | nil => exact Nat.le_refl 0
  | cons f fields ih =>
      have hsize : f.size ≤ 65535 := size_le_of_fault? (h f List.mem_cons_self)
      have hrest := ih fun g hg => h g (List.mem_cons_of_mem f hg)
      rw [total, List.length_cons]
      omega

end SizedField

open SizedField

/-! ### Rows of fields -/

/-- Whether writing fails with the first fault of a row of fields, and comes to `size`
bytes if there is none. -/
structure Writes (written : Except WireError (List UInt8)) (fields : List SizedField)
    (size : Nat) : Prop where
  failed : ∀ e, fields.findSome? fault? = some e → written = .error e
  wrote : fields.findSome? fault? = none → ∃ bytes, written = .ok bytes ∧ bytes.length = size

/-- Bytes that are at hand are written, without any field that could be at fault. -/
theorem writes_ok {bytes : List UInt8} {size : Nat} (h : bytes.length = size) :
    Writes (.ok bytes) [] size where
  failed := by simp
  wrote _ := ⟨bytes, rfl, h⟩

/-- What is written behind a row of fields fails with the first fault of both rows. -/
theorem Writes.bind {x : Except WireError (List UInt8)}
    {f : List UInt8 → Except WireError (List UInt8)} {fields more : List SizedField}
    {size sizeAll : Nat} (h : Writes x fields size)
    (hmore : ∀ bytes, bytes.length = size → Writes (f bytes) more sizeAll) :
    Writes (x >>= f) (fields ++ more) sizeAll := by
  cases hfault : fields.findSome? fault? with
  | some e =>
      -- Nothing behind the first fault is looked at.
      have hfirst : (fields ++ more).findSome? fault? = some e := by
        rw [List.findSome?_append, hfault, Option.some_or]
      rw [h.failed e hfault]
      refine ⟨fun e' he' => ?_, fun hnone => ?_⟩
      · rw [Option.some.inj (hfirst.symm.trans he')]
        rfl
      · cases hfirst.symm.trans hnone
  | none =>
      obtain ⟨bytes, hbytes, hlength⟩ := h.wrote hfault
      have hrest : (fields ++ more).findSome? fault? = more.findSome? fault? := by
        rw [List.findSome?_append, hfault, Option.none_or]
      have hwrites := hmore bytes hlength
      rw [hbytes]
      exact ⟨fun e he => hwrites.failed e (hrest ▸ he), fun hnone => hwrites.wrote (hrest ▸ hnone)⟩

/-- The same where all the fields stand in front. -/
theorem Writes.map {x : Except WireError (List UInt8)} {f : List UInt8 → List UInt8}
    {fields : List SizedField} {size sizeAll : Nat} (h : Writes x fields size)
    (hlength : ∀ bytes, bytes.length = size → (f bytes).length = sizeAll) :
    Writes (do return f (← x)) fields sizeAll := by
  have hwrites := h.bind fun bytes hbytes => writes_ok (hlength bytes hbytes)
  rw [List.append_nil] at hwrites
  exact hwrites

/-- A word is two bytes. -/
theorem length_wordBytes (n : UInt16) : (wordBytes n).length = 2 :=
  rfl

/-- A text is checked for the fault of its field. -/
theorem validateText_eq (s : String) :
    validateText s = (SizedField.text s).fault?.elim (.ok ()) .error := by
  rw [validateText, fault?]
  by_cases hlong : maxTextLength < s.utf8ByteSize
  · rw [if_pos hlong, if_pos hlong]
    rfl
  · rw [if_neg hlong, if_neg hlong]
    by_cases hnul : '\x00' ∈ s.toList
    · rw [if_pos (List.contains_iff_mem.mpr hnul), if_pos hnul]
      rfl
    · rw [if_neg (fun h => hnul (List.contains_iff_mem.mp h)), if_neg hnul]
      rfl

/-- A text is written unless its own field is at fault. -/
theorem writes_textField (s : String) : Writes (textField s) [.text s] (total [.text s]) := by
  have hfirst : [SizedField.text s].findSome? fault? = (SizedField.text s).fault? := by
    rw [List.findSome?_singleton]
  unfold textField
  refine ⟨fun e he => ?_, fun hnone => ?_⟩
  · rw [validateText_eq, hfirst.symm.trans he]
    rfl
  · have hsound := hfirst.symm.trans hnone
    refine ⟨wordBytes s.utf8ByteSize.toUInt16 ++ Utf8.encode s, ?_, ?_⟩
    · rw [validateText_eq, hsound]
      rfl
    · rw [List.length_append, length_wordBytes, Utf8.length_encode, total_singleton, size]
      omega

/-- So is binary data. -/
theorem writes_binaryField (bs : List UInt8) :
    Writes (binaryField bs) [.binary bs] (total [.binary bs]) := by
  have hfirst : [SizedField.binary bs].findSome? fault? = (SizedField.binary bs).fault? := by
    rw [List.findSome?_singleton]
  refine ⟨fun e he => ?_, fun hnone => ?_⟩
  · rw [hfirst, fault?] at he
    unfold binaryField
    by_cases hlong : maxTextLength < bs.length
    · rw [if_pos hlong] at he ⊢
      rw [← Option.some.inj he]
    · rw [if_neg hlong] at he
      cases he
  · have hsize := fault?_binary_eq_none_iff.mp (hfirst.symm.trans hnone)
    refine ⟨wordBytes bs.length.toUInt16 ++ bs, if_neg (Nat.not_lt.mpr hsize), ?_⟩
    rw [List.length_append, length_wordBytes, total_singleton, size]
    omega

/-! ### The fields of a packet -/

namespace Connect

/-- The fields of a will that start with their length. -/
def willSizedFields : Option Message → List SizedField
  | none => []
  | some will => [.text will.topic, .binary will.payload]

/-- The field of an optional text. -/
def optionalSizedField (s : Option String) : List SizedField :=
  s.toList.map .text

/-- The fields of a CONNECT that start with their length, behind the protocol name. -/
def sizedFields (c : Connect) : List SizedField :=
  .text c.clientId :: (willSizedFields c.will ++ (optionalSizedField (presentText c.username)
    ++ optionalSizedField (presentText c.password)))

/-- A will is written as its topic and its payload, or not at all. -/
theorem writes_willFields (will : Option Message) :
    Writes (willFields will) (willSizedFields will) (total (willSizedFields will)) := by
  cases will with
  | none => exact writes_ok rfl
  | some will =>
      refine (writes_textField will.topic).bind fun topic htopic =>
        (writes_binaryField will.payload).map fun payload hpayload => ?_
      rw [List.length_append, htopic, hpayload, ← total_append]
      rfl

/-- A text that is absent takes no space. -/
theorem writes_optionalTextField (s : Option String) :
    Writes (optionalTextField s) (optionalSizedField s) (total (optionalSizedField s)) := by
  cases s with
  | none => exact writes_ok rfl
  | some s => exact writes_textField s

/-- Both names of the protocol can be written. -/
theorem textField_protocolName (level : ProtocolLevel) :
    ∃ name, textField level.protocolName = .ok name ∧
      name.length = level.protocolName.utf8ByteSize + 2 := by
  cases level with
  | v31 => exact ⟨_, rfl, rfl⟩
  | v311 => exact ⟨_, rfl, rfl⟩

/-- A CONNECT is written unless one of its fields is at fault, in the order of the
fields. Ten bytes of it, or two more with the older name, are in no such field. -/
theorem writes_body (c : Connect) : Writes c.body c.sizedFields
    (c.protocolLevel.protocolName.utf8ByteSize + 6 + total c.sizedFields) := by
  -- The protocol name is never at fault.
  obtain ⟨name, hname, hlength⟩ := textField_protocolName c.protocolLevel
  unfold body
  rw [hname]
  refine (writes_textField c.clientId).bind fun clientId hclientId =>
    (writes_willFields c.will).bind fun will hwill =>
    (writes_optionalTextField (presentText c.username)).bind fun username husername =>
    (writes_optionalTextField (presentText c.password)).map fun password hpassword => ?_
  have htotal : total c.sizedFields
      = clientId.length + (will.length + (username.length + password.length)) := by
    rw [hclientId, hwill, husername, hpassword, ← total_append, ← total_append, ← total_append]
    rfl
  simp only [List.length_append, hlength, length_wordBytes, List.length_cons, List.length_nil]
  omega

end Connect

namespace Packet

/-- The fields of a packet that start with their length, in the order in which they are
written. The protocol name of a CONNECT is left out. -/
def sizedFields : Packet → List SizedField
  | connect c => c.sizedFields
  | publish m => [.text m.topic]
  | subscribe r => [.text r.topic]
  | unsubscribe r => [.text r.topic]
  | _ => []

/-- How many bytes of the body are in no such field. -/
def looseSize : Packet → Nat
  | connect c => c.protocolLevel.protocolName.utf8ByteSize + 6
  | publish m => (if m.qos = .atMostOnce then 0 else 2) + m.payload.length
  | subscribe _ | subAck .. => 3
  | connAck .. | pubAck _ | pubRec _ | pubRel _ | pubComp _ | unsubscribe _ | unsubAck _ => 2
  | pingReq | pingResp | disconnect => 0

/-- How many bytes the body has. -/
def bodySize (p : Packet) : Nat :=
  p.looseSize + total p.sizedFields

/-- The body of a message is its topic, its identifier above level 0, and its payload. -/
theorem bodySize_publish (m : Message) : (publish m).bodySize
    = 2 + m.topic.utf8ByteSize + (if m.qos = .atMostOnce then 0 else 2) + m.payload.length := by
  rw [bodySize, sizedFields, looseSize, total_singleton, size]
  omega

/-- A body is written unless one of these fields is at fault. -/
theorem writes_body (p : Packet) : Writes p.body p.sizedFields p.bodySize := by
  cases p with
  | connect c => exact c.writes_body
  | publish m =>
      refine (writes_textField m.topic).map fun topic htopic => ?_
      rw [bodySize, looseSize, List.length_append, List.length_append, htopic]
      split <;> simp [length_wordBytes, sizedFields] <;> omega
  | subscribe r =>
      refine (writes_textField r.topic).map fun topic htopic => ?_
      rw [bodySize, looseSize, List.length_append, List.length_append, htopic, length_wordBytes]
      simp [sizedFields]
      omega
  | unsubscribe r =>
      refine (writes_textField r.topic).map fun topic htopic => ?_
      rw [bodySize, looseSize, List.length_append, htopic, length_wordBytes]
      rfl
  | _ => exact writes_ok rfl

/-! ### The faults of a packet -/

/-- What keeps a packet from being written: the first field at fault, and the length of
the body only if there is none. -/
def fault? (p : Packet) : Option WireError :=
  (p.sizedFields.findSome? SizedField.fault?).or
    (if maxRemainingLength < p.bodySize then some (.packetTooBig p.bodySize) else none)

/-- A packet is written, or its fault is reported. -/
theorem encode_cases_fault? (p : Packet) :
    (p.fault? = none ∧ ∃ bytes, p.encode = .ok bytes) ∨
      ∃ e, p.fault? = some e ∧ p.encode = .error e := by
  unfold fault?
  cases hfault : p.sizedFields.findSome? SizedField.fault? with
  | some e =>
      refine Or.inr ⟨e, rfl, ?_⟩
      rw [encode, p.writes_body.failed e hfault]
      rfl
  | none =>
      obtain ⟨body, hbody, hlength⟩ := p.writes_body.wrote hfault
      -- No field is at fault, so the body is there, and its length is what `bodySize` says.
      by_cases hbig : maxRemainingLength < p.bodySize
      · refine Or.inr ⟨.packetTooBig p.bodySize, if_pos hbig, ?_⟩
        rw [encode_of_body hbody, encodeLength, hlength, if_neg (Nat.not_le.mpr hbig)]
        rfl
      · refine Or.inl ⟨if_neg hbig, p.header.toByte :: lengthBytes body.length ++ body, ?_⟩
        rw [encode_of_body hbody, encodeLength, hlength, if_pos (Nat.le_of_not_lt hbig)]
        rfl

/-- Writing fails with the fault of the packet, and with nothing else. -/
theorem encode_eq_error_iff {p : Packet} {e : WireError} :
    p.encode = .error e ↔ p.fault? = some e := by
  rcases p.encode_cases_fault? with ⟨hnone, bytes, hok⟩ | ⟨e', hsome, herror⟩
  · simp [hnone, hok]
  · simp [hsome, herror]

/-- A packet is written exactly if it has no fault. -/
theorem exists_encode_iff {p : Packet} : (∃ bytes, p.encode = .ok bytes) ↔ p.fault? = none := by
  rcases p.encode_cases_fault? with ⟨hnone, bytes, hok⟩ | ⟨e, hsome, herror⟩
  · simp [hnone, hok]
  · simp [hsome, herror]

/-- A body that was written has the length that was computed. -/
theorem length_body {p : Packet} {body : List UInt8} (h : p.body = .ok body) :
    p.sizedFields.findSome? SizedField.fault? = none ∧ body.length = p.bodySize := by
  cases hfault : p.sizedFields.findSome? SizedField.fault? with
  | some e => cases h.symm.trans (p.writes_body.failed e hfault)
  | none =>
      obtain ⟨body', hbody', hlength⟩ := p.writes_body.wrote hfault
      obtain rfl := Except.ok.inj (h.symm.trans hbody')
      exact ⟨rfl, hlength⟩

/-- A CONNECT has at most five such fields. -/
theorem length_sizedFields_connect (c : Connect) : (connect c).sizedFields.length ≤ 5 := by
  have hwill : (Connect.willSizedFields c.will).length ≤ 2 := by
    cases c.will <;> simp [Connect.willSizedFields]
  have hoptional : ∀ s : Option String, (Connect.optionalSizedField s).length ≤ 1 := by
    intro s
    cases s <;> simp [Connect.optionalSizedField]
  have husername := hoptional (presentText c.username)
  have hpassword := hoptional (presentText c.password)
  simp only [sizedFields, Connect.sizedFields, List.length_cons, List.length_append]
  omega

/-- A packet that is too long is a PUBLISH, if its fields can be written. -/
theorem bodySize_le {p : Packet} (hkind : p.kind ≠ .publish)
    (h : ∀ f ∈ p.sizedFields, f.fault? = none) : p.bodySize ≤ maxRemainingLength := by
  have htotal := total_le h
  have hfew : p.sizedFields.length ≤ 5 ∧ p.looseSize ≤ 12 := by
    cases p with
    | connect c =>
        refine ⟨length_sizedFields_connect c, ?_⟩
        cases hlevel : c.protocolLevel <;> simp only [looseSize, hlevel] <;> decide
    | publish m => exact absurd rfl hkind
    | _ => simp [sizedFields, looseSize]
  unfold bodySize maxRemainingLength
  omega

/-- Other packets have no fault but those of their fields. -/
theorem fault?_of_kind_ne {p : Packet} (hkind : p.kind ≠ .publish) :
    p.fault? = p.sizedFields.findSome? SizedField.fault? := by
  unfold fault?
  cases hfault : p.sizedFields.findSome? SizedField.fault? with
  | some e => rfl
  | none =>
      have hshort := bodySize_le hkind (List.findSome?_eq_none_iff.mp hfault)
      exact if_neg (Nat.not_lt.mpr hshort)

/-- A field at fault is a text that is too long or has a U+0000, or binary data that
is too long. -/
theorem exists_findSome?_iff {p : Packet} :
    (∃ e, p.sizedFields.findSome? SizedField.fault? = some e) ↔
      (∃ s, .text s ∈ p.sizedFields ∧ (maxTextLength < s.utf8ByteSize ∨ '\x00' ∈ s.toList)) ∨
      ∃ bytes, .binary bytes ∈ p.sizedFields ∧ maxTextLength < bytes.length := by
  have htext : ∀ s : String, (SizedField.text s).fault? ≠ none ↔
      maxTextLength < s.utf8ByteSize ∨ '\x00' ∈ s.toList := by
    intro s
    rw [ne_eq, fault?_text_eq_none_iff, Decidable.not_and_iff_not_or_not, Nat.not_le,
      Decidable.not_not]
  have hbinary : ∀ bytes : List UInt8, (SizedField.binary bytes).fault? ≠ none ↔
      maxTextLength < bytes.length := by
    intro bytes
    rw [ne_eq, fault?_binary_eq_none_iff, Nat.not_le]
  rw [← Option.isSome_iff_exists, ← Option.ne_none_iff_isSome, ne_eq, List.findSome?_eq_none_iff]
  constructor
  · intro h
    -- Which field comes first does not matter here, only that there is one.
    obtain ⟨f, hf, hfault⟩ : ∃ f ∈ p.sizedFields, f.fault? ≠ none := by
      simpa using h
    cases f with
    | text s => exact Or.inl ⟨s, hf, (htext s).mp hfault⟩
    | binary bytes => exact Or.inr ⟨bytes, hf, (hbinary bytes).mp hfault⟩
  · rintro (⟨s, hf, hfault⟩ | ⟨bytes, hf, hfault⟩) hnone
    · exact (htext s).mpr hfault (hnone _ hf)
    · exact (hbinary bytes).mpr hfault (hnone _ hf)

/-- The fault of a packet is that of a field, or its body was written and is too long. -/
theorem fault?_eq_some_iff {p : Packet} {e : WireError} :
    p.fault? = some e ↔
      p.sizedFields.findSome? SizedField.fault? = some e ∨
      ∃ body, p.body = .ok body ∧ maxRemainingLength < body.length ∧
        e = .packetTooBig body.length := by
  unfold fault?
  cases hfault : p.sizedFields.findSome? SizedField.fault? with
  | some e' =>
      -- There is no body.
      have hbody : ∀ body, p.body ≠ .ok body := by
        intro body hbody
        cases (length_body hbody).1.symm.trans hfault
      simp [hbody]
  | none =>
      obtain ⟨body, hbody, hlength⟩ := p.writes_body.wrote hfault
      rw [Option.none_or, hbody, ← hlength]
      by_cases hbig : maxRemainingLength < body.length
      · simp [hbig, eq_comm]
      · simp [hbig]

/-- A packet is put behind what a buffer holds, or the buffer stays as it was. Writing
fails exactly if a text of the packet is too long or has a U+0000, the payload of a
will is too long, or the body is. What is reported is the fault of the first such field;
the body is too long only if no field is at fault, and then the packet is a PUBLISH. -/
theorem encode_all_or_nothing :
    (∀ (p : Packet) (buffer : List UInt8),
      (∃ bytes, p.encode = .ok bytes ∧ p.writeTo buffer = (none, buffer ++ bytes)) ∨
      ∃ e, p.encode = .error e ∧ p.writeTo buffer = (some e, buffer)) ∧
    (∀ p : Packet, (∃ e, p.encode = .error e) ↔
      ((∃ s, .text s ∈ p.sizedFields ∧ (65535 < s.utf8ByteSize ∨ '\x00' ∈ s.toList)) ∨
        ∃ bytes, .binary bytes ∈ p.sizedFields ∧ 65535 < bytes.length) ∨
      ∃ body, p.body = .ok body ∧ 268435455 < body.length) ∧
    ∀ (p : Packet) (e : WireError), p.encode = .error e ↔
      (∃ before f after, p.sizedFields = before ++ f :: after ∧ f.fault? = some e ∧
        ∀ g ∈ before, g.fault? = none) ∨
      ((∀ f ∈ p.sizedFields, f.fault? = none) ∧ p.kind = .publish ∧
        ∃ body, p.body = .ok body ∧ 268435455 < body.length ∧ e = .packetTooBig body.length) := by
  refine ⟨?_, ?_, ?_⟩
  · intro p buffer
    unfold writeTo
    cases hencode : p.encode with
    | ok bytes => exact Or.inl ⟨bytes, rfl, rfl⟩
    | error e => exact Or.inr ⟨e, rfl, rfl⟩
  · intro p
    simp only [encode_eq_error_iff, fault?_eq_some_iff, exists_or]
    refine or_congr exists_findSome?_iff ⟨?_, ?_⟩
    · rintro ⟨e, body, hbody, hbig, -⟩
      exact ⟨body, hbody, hbig⟩
    · rintro ⟨body, hbody, hbig⟩
      exact ⟨_, body, hbody, hbig, rfl⟩
  · intro p e
    rw [encode_eq_error_iff, fault?_eq_some_iff, List.findSome?_eq_some_iff]
    refine or_congr Iff.rfl ⟨?_, And.right ∘ And.right⟩
    rintro ⟨body, hbody, hbig, rfl⟩
    obtain ⟨hfault, hlength⟩ := length_body hbody
    have hsound := List.findSome?_eq_none_iff.mp hfault
    -- Fields without a fault bound the body of every other kind far below the limit.
    refine ⟨hsound, Decidable.byContradiction fun hkind => ?_, body, hbody, hbig, rfl⟩
    exact absurd hbig (Nat.not_lt.mpr (hlength ▸ bodySize_le hkind hsound))

/-- The topic of a will stands in front of the user name. -/
example : (connect
    { protocolLevel := .v311, cleanSession := true, keepAlive := 0, clientId := "c"
      will := some (.ofPayload "w\x00" [] .atMostOnce), username := some "u\x00"
      password := none }).encode = .error (.invalidString "w\x00") := by
  rfl

end Packet

end Mqtt
