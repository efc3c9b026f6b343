import Mqtt.Proofs.Wire.Field
import Mqtt.Proofs.Wire.Length
import Mqtt.Wire.Decode
import Mqtt.Wire.Encode

/-!
# `Mqtt.Proofs.Wire.RoundTrip`: packets are read back as they were written

The bytes of a packet tell the packet, whatever follows them. All that gets
lost is the identifier of a message at level 0, which is not written
(`Packet.normal`).

* `Packet.decodeWhole_body`: a body is read back, field by field.
* `Packet.decode_undoes_encode`: so are packets, one by one and in a row; a
  CONNECT is told from them and refused.
-/

set_option autoImplicit false

namespace Mqtt

/-- What the wire tells of a packet: a message at level 0 has no identifier. -/
def Packet.normal : Packet → Packet
  | .publish m => .publish (if m.qos = .atMostOnce then { m with packetId := 0 } else m)
  | p => p

/-- The first byte tells the header. -/
theorem FixedHeader.ofByte_toByte (h : FixedHeader) : ofByte h.toByte = .ok h := by
  obtain ⟨kind, retain, qos, duplicate⟩ := h
  cases kind <;> cases retain <;> cases qos <;> cases duplicate <;> rfl

/-- The header of the packets of a kind, other than PUBLISH. -/
def PacketKind.header : PacketKind → FixedHeader
  | .subscribe => ⟨.subscribe, false, .atLeastOnce, false⟩
  | .unsubscribe => ⟨.unsubscribe, false, .atLeastOnce, false⟩
  | .pubRel => ⟨.pubRel, false, .atLeastOnce, false⟩
  | kind => ⟨kind, false, .atMostOnce, false⟩

/-- The flags that a kind must have are those of its header. -/
theorem PacketKind.requiredFlags_eq {kind : PacketKind} (h : kind ≠ .publish) :
    kind.requiredFlags = some (kind.header.toByte &&& 0x0F) := by
  cases kind <;> first | rfl | exact absurd rfl h

/-- Only the header of a PUBLISH depends on more than the kind. -/
theorem Packet.header_eq_of_kind {p : Packet} (h : p.kind ≠ .publish) :
    p.header = p.kind.header := by
  cases p <;> first | rfl | exact absurd rfl h

/-- The flags of a packet are those that its kind must have. -/
theorem Packet.checkFlags_header (p : Packet) :
    p.header.kind.checkFlags (p.header.toByte &&& 0x0F) = .ok () := by
  by_cases hkind : p.kind = .publish
  · cases p <;> first | rfl | cases hkind
  · have hheaderKind : p.kind.header.kind = p.kind := by
      cases p <;> rfl
    rw [p.header_eq_of_kind hkind, hheaderKind, PacketKind.checkFlags,
      PacketKind.requiredFlags_eq hkind]
    exact if_pos rfl

/-- A level is read back from its number. -/
theorem readQoS_level (qos : QoS) : readQoS qos.level = .ok qos := by
  cases qos <;> rfl

/-- So is the verdict of a CONNACK. -/
theorem readConnectCode_code (code : ConnectCode) : readConnectCode code.code = .ok code := by
  cases code <;> rfl

/-- So is the verdict of a SUBACK, also a refusal. -/
theorem readGranted_grantedByte (granted : Option QoS) :
    readGranted (grantedByte granted) = .ok granted := by
  cases granted with
  | none => rfl
  | some qos => cases qos <;> rfl

/-- Where two steps succeed, the first one does. -/
theorem bind_eq_ok {ε α β : Type} {x : Except ε α} {f : α → Except ε β} {b : β}
    (h : x >>= f = .ok b) : ∃ a, x = .ok a ∧ f a = .ok b := by
  cases x with
  | error e => cases h
  | ok a => exact ⟨a, rfl, h⟩

namespace Packet

open Reader

/-- A body that is read to its end is read whole. -/
theorem decodeWhole_of_run {h : FixedHeader} {body : List UInt8} {p : Packet}
    (hrun : (readBody h).run body = .ok (p, [])) : decodeWhole h body = .ok p := by
  rw [decodeWhole, hrun]
  rfl

/-- A reader that takes off all of a body reads it whole. -/
theorem decodeWhole_of_reads {h : FixedHeader} {body : List UInt8} {p : Packet}
    (hreads : Reads (readBody h) body p) : decodeWhole h body = .ok p := by
  refine decodeWhole_of_run ?_
  have hrun := hreads []
  rw [List.append_nil] at hrun
  exact hrun

/-- The payload of a message is all that is left of its body. -/
theorem run_readBody_publish {m : Message} {topic : List UInt8}
    (htopic : textField m.topic = .ok topic) :
    (readBody (publish m).header).run
      (topic ++ ((if m.qos = .atMostOnce then [] else wordBytes m.packetId) ++ m.payload))
      = .ok ((publish m).normal, []) := by
  show StateT.run (do
    let topic ← Reader.text .publish
    let packetId ← if m.qos = .atMostOnce then pure 0 else Reader.word .publish
    let payload ← Reader.rest
    return publish
      { topic, payload, qos := m.qos, retain := m.retain, duplicate := m.duplicate, packetId }) _
    = _
  rw [(reads_text .publish htopic).bind_run]
  by_cases hqos : m.qos = .atMostOnce
  · rw [normal, if_pos hqos, if_pos hqos, if_pos hqos]
    rfl
  · rw [normal, if_neg hqos, if_neg hqos, if_neg hqos]
    exact (reads_word .publish m.packetId).bind_run _ m.payload

/-- The body of a packet is read back. -/
theorem decodeWhole_body {p : Packet} {bytes : List UInt8} (hkind : p.kind ≠ .connect)
    (h : p.body = .ok bytes) : decodeWhole p.header bytes = .ok p.normal := by
  cases p with
  | connect c => exact absurd rfl hkind
  | connAck sessionPresent code =>
      obtain rfl := Except.ok.inj h
      have hcode := (reads_lift (readConnectCode_code code)).map (connAck sessionPresent)
      -- The flag is read back from a byte, so both bytes are tried.
      cases sessionPresent <;>
        exact decodeWhole_of_reads
          ((reads_byte .connAck _).bind ((reads_byte .connAck _).bind hcode))
  | publish m =>
      obtain ⟨topic, htopic, hbytes⟩ := bind_eq_ok h
      obtain rfl := Except.ok.inj hbytes
      exact decodeWhole_of_run (run_readBody_publish htopic)
  | subscribe r =>
      obtain ⟨topic, htopic, hbytes⟩ := bind_eq_ok h
      obtain rfl := Except.ok.inj hbytes
      have hqos := (reads_lift (readQoS_level r.qos)).map fun qos => subscribe { r with qos }
      exact decodeWhole_of_reads ((reads_word .subscribe r.packetId).bind
        ((reads_text .subscribe htopic).bind ((reads_byte .subscribe _).bind hqos)))
  | subAck i granted =>
      obtain rfl := Except.ok.inj h
      have hgranted := (reads_lift (readGranted_grantedByte granted)).map (subAck i)
      exact decodeWhole_of_reads
        ((reads_word .subAck i).bind ((reads_byte .subAck _).bind hgranted))
  | unsubscribe r =>
      obtain ⟨topic, htopic, hbytes⟩ := bind_eq_ok h
      obtain rfl := Except.ok.inj hbytes
      have htext := (reads_text .unsubscribe htopic).map fun topic => unsubscribe { r with topic }
      exact decodeWhole_of_reads ((reads_word .unsubscribe r.packetId).bind htext)
  | pubAck i =>
      obtain rfl := Except.ok.inj h
      exact decodeWhole_of_reads ((reads_word .pubAck i).map Packet.pubAck)
  | pubRec i =>
      obtain rfl := Except.ok.inj h
      exact decodeWhole_of_reads ((reads_word .pubRec i).map Packet.pubRec)
  | pubRel i =>
      obtain rfl := Except.ok.inj h
      exact decodeWhole_of_reads ((reads_word .pubRel i).map Packet.pubRel)
  | pubComp i =>
      obtain rfl := Except.ok.inj h
      exact decodeWhole_of_reads ((reads_word .pubComp i).map Packet.pubComp)
  | unsubAck i =>
      obtain rfl := Except.ok.inj h
      exact decodeWhole_of_reads ((reads_word .unsubAck i).map Packet.unsubAck)
  | pingReq | pingResp | disconnect =>
      obtain rfl := Except.ok.inj h
      exact decodeWhole_of_reads (reads_pure _)

/-- The bytes of a packet are its first byte, the length of its body, and its body. -/
theorem encode_cases {p : Packet} {bytes : List UInt8} (h : p.encode = .ok bytes) :
    ∃ body field, p.body = .ok body ∧ encodeLength body.length = .ok field ∧
      bytes = p.header.toByte :: (field ++ body) := by
  obtain ⟨body, hbody, hheader⟩ := bind_eq_ok h
  obtain ⟨header, hheader, hbytes⟩ := bind_eq_ok hheader
  obtain ⟨field, hfield, hheader⟩ := bind_eq_ok hheader
  obtain rfl := Except.ok.inj hheader
  obtain rfl := Except.ok.inj hbytes
  exact ⟨body, field, hbody, hfield, rfl⟩

/-- A frame is taken off whatever follows it. -/
theorem split?_append (first : UInt8) {field body : List UInt8}
    (h : encodeLength body.length = .ok field) (rest : List UInt8) :
    Frame.split? (first :: (field ++ body) ++ rest) = .ok (some (⟨first, body⟩, rest)) := by
  rw [List.cons_append, List.append_assoc, Frame.split?, decodeLength_append h]
  dsimp only
  rw [cut?_eq, if_pos (by rw [List.length_append]; omega), List.take_left, List.drop_left]

/-- The header of a written packet is accepted, and its body is read. -/
theorem decode_append {p : Packet} {bytes : List UInt8} (h : p.encode = .ok bytes)
    (rest : List UInt8) : ∃ body, p.body = .ok body ∧
      decode (bytes ++ rest) = (decodeWhole p.header body).map fun q => some (q, rest) := by
  obtain ⟨body, field, hbody, hfield, rfl⟩ := encode_cases h
  refine ⟨body, hbody, ?_⟩
  -- The first byte is accepted, so all depends on the body.
  have hframe : Frame.decode ⟨p.header.toByte, body⟩ = decodeWhole p.header body := by
    unfold Frame.decode
    rw [FixedHeader.ofByte_toByte]
    show (do
      p.header.kind.checkFlags (p.header.toByte &&& 0x0F)
      decodeWhole p.header body) = _
    rw [checkFlags_header]
    rfl
  unfold decode
  rw [split?_append _ hfield]
  dsimp only
  rw [hframe]
  cases decodeWhole p.header body <;> rfl

/-- A packet is read back, and what follows it is left. -/
theorem decode_append_of_kind {p : Packet} {bytes : List UInt8} (hkind : p.kind ≠ .connect)
    (h : p.encode = .ok bytes) (rest : List UInt8) :
    decode (bytes ++ rest) = .ok (some (p.normal, rest)) := by
  obtain ⟨body, hbody, hdecode⟩ := decode_append h rest
  rw [hdecode, decodeWhole_body hkind hbody]
  rfl

/-- A CONNECT is refused, whatever follows it. -/
theorem decode_append_connect {c : Connect} {bytes : List UInt8}
    (h : (connect c).encode = .ok bytes) (rest : List UInt8) :
    decode (bytes ++ rest) = .error (.unsupportedDecode .connect) := by
  obtain ⟨body, -, hdecode⟩ := decode_append h rest
  rw [hdecode]
  rfl

/-- A packet that was read stands in front of what is read on. -/
theorem decodeAllFrom_of_packet {p : Packet} {bs rest : List UInt8}
    (h : decode bs = .ok (some (p, rest))) (seen : List Packet) :
    decodeAllFrom seen bs = decodeAllFrom (p :: seen) rest := by
  rw [decodeAllFrom]
  split
  · next h' => cases h.symm.trans h'
  · next h' => cases h.symm.trans h'
  · next h' =>
      obtain ⟨rfl, rfl⟩ := Prod.mk.inj (Option.some.inj (Except.ok.inj (h.symm.trans h')))
      rfl

/-- Packets in a row are read back one by one, and nothing is left. -/
theorem decodeAllFrom_flatten (seen ps : List Packet) {written : List (List UInt8)}
    (hkinds : ∀ p ∈ ps, p.kind ≠ .connect) (h : ps.mapM encode = .ok written) :
    decodeAllFrom seen written.flatten = ⟨seen.reverse ++ ps.map normal, none, []⟩ := by
  induction ps generalizing seen written with
  | nil =>
      obtain rfl : [] = written := Except.ok.inj h
      rw [List.flatten_nil, decodeAllFrom]
      simp [decode, Frame.split?]
  | cons p ps ih =>
      rw [List.mapM_cons] at h
      obtain ⟨bytes, hbytes, h⟩ := bind_eq_ok h
      obtain ⟨later, hlater, h⟩ := bind_eq_ok h
      obtain rfl := Except.ok.inj h
      -- The first packet is read back from in front of all the others.
      have hdecode := decode_append_of_kind (hkinds p List.mem_cons_self) hbytes later.flatten
      rw [List.flatten_cons, decodeAllFrom_of_packet hdecode,
        ih _ (fun p' hp' => hkinds p' (List.mem_cons_of_mem p hp')) hlater,
        List.reverse_cons, List.append_assoc]
      rfl

/-- Reading undoes writing: for one packet with anything behind it, and for
packets in a row. Only a CONNECT is not read; it is told from all others. -/
theorem decode_undoes_encode :
    (∀ (p : Packet) (bytes rest : List UInt8), p.kind ≠ .connect → p.encode = .ok bytes →
      decode (bytes ++ rest) = .ok (some (p.normal, rest))) ∧
    (∀ (ps : List Packet) (written : List (List UInt8)), (∀ p ∈ ps, p.kind ≠ .connect) →
      ps.mapM encode = .ok written → decodeAll written.flatten = ⟨ps.map normal, none, []⟩) ∧
    (∀ (c : Connect) (bytes rest : List UInt8), (connect c).encode = .ok bytes →
      decode (bytes ++ rest) = .error (.unsupportedDecode .connect)) := by
  refine ⟨?_, ?_, ?_⟩
  · intro p bytes rest hkind h
    exact decode_append_of_kind hkind h rest
  · intro ps written hkinds h
    exact decodeAllFrom_flatten [] ps hkinds h
  · intro c bytes rest h
    exact decode_append_connect h rest

/-- The length field of a short packet is one byte. -/
theorem encode_of_short {p : Packet} {body : List UInt8} (h : p.body = .ok body)
    (hshort : body.length < 128) :
    p.encode = .ok (p.header.toByte :: body.length.toUInt8 :: body) := by
  have hle : body.length ≤ maxRemainingLength := by
    unfold maxRemainingLength
    omega
  rw [encode_of_body h, encodeLength, if_pos hle, lengthBytes, if_pos hshort]
  rfl

/-- A SUBSCRIBE is read back from in front of half a packet, and in front of
a message at level 0, which loses its identifier. A CONNECT is refused. -/
theorem decode_undoes_encode_subscribe :
    decode ([0x82, 10, 0, 7, 0, 5, 97, 47, 0xE2, 0x98, 0x83, 2] ++ [0x30, 3])
      = .ok (some (subscribe ⟨7, "a/☃", .exactlyOnce⟩, [0x30, 3])) ∧
    decodeAll [[0x82, 10, 0, 7, 0, 5, 97, 47, 0xE2, 0x98, 0x83, 2], [0x31, 3, 0, 1, 97]].flatten
      = ⟨[subscribe ⟨7, "a/☃", .exactlyOnce⟩, publish ⟨"a", [], .atMostOnce, true, false, 0⟩],
        none, []⟩ ∧
    decode ([16, 15, 0, 6, 77, 81, 73, 115, 100, 112, 3, 0, 0, 0, 0, 1, 99] ++ [0x30])
      = .error (.unsupportedDecode .connect) := by
  have htext : (subscribe ⟨7, "a/☃", .exactlyOnce⟩).body
      = .ok [0, 7, 0, 5, 97, 47, 0xE2, 0x98, 0x83, 2] := rfl
  have hsubscribe : (subscribe ⟨7, "a/☃", .exactlyOnce⟩).encode
      = .ok [0x82, 10, 0, 7, 0, 5, 97, 47, 0xE2, 0x98, 0x83, 2] :=
    encode_of_short htext (by decide)
  have hmessage : (publish ⟨"a", [], .atMostOnce, true, false, 9⟩).body = .ok [0, 1, 97] := rfl
  have hpublish : (publish ⟨"a", [], .atMostOnce, true, false, 9⟩).encode
      = .ok [0x31, 3, 0, 1, 97] := encode_of_short hmessage (by decide)
  have hbody : (connect ⟨.v31, false, 0, "c", none, none, none⟩).body
      = .ok [0, 6, 77, 81, 73, 115, 100, 112, 3, 0, 0, 0, 0, 1, 99] := rfl
  have hconnect : (connect ⟨.v31, false, 0, "c", none, none, none⟩).encode
      = .ok [16, 15, 0, 6, 77, 81, 73, 115, 100, 112, 3, 0, 0, 0, 0, 1, 99] :=
    encode_of_short hbody (by decide)
  have hwritten : [subscribe ⟨7, "a/☃", .exactlyOnce⟩,
      publish ⟨"a", [], .atMostOnce, true, false, 9⟩].mapM encode
      = .ok [[0x82, 10, 0, 7, 0, 5, 97, 47, 0xE2, 0x98, 0x83, 2], [0x31, 3, 0, 1, 97]] := by
    rw [List.mapM_cons, List.mapM_cons, hsubscribe, hpublish]
    rfl
  exact ⟨decode_undoes_encode.1 _ _ [0x30, 3] (by decide) hsubscribe,
    decode_undoes_encode.2.1 _ _ (by decide) hwritten,
    decode_undoes_encode.2.2 _ _ [0x30] hconnect⟩

end Packet

end Mqtt
