import Mqtt.Proofs.Wire.RoundTrip

/-!
# `Mqtt.Proofs.Wire.Canonical`: packets are written as they were read

A frame that is read as a packet is the frame that the packet is written as,
but for two things that carry no meaning: its length field may be longer than
it has to be, and seven bits of a CONNACK are reserved (`Frame.canonical`).

* `Packet.body_of_readBody`: a body is written as it was read, field by field.
* `FixedHeader.toByte_of_ofByte`, `FixedHeader.eq_header_of_checkFlags`: the
  first byte is that of the packet.
* `Packet.encode_undoes_decode`: so the frames that are accepted are those of
  the packets that can be written, and a packet has one frame only.
-/

set_option autoImplicit false

namespace Mqtt

/-! ### The first byte -/

/-- The bits of a first byte are those of its kind and its flags. -/
theorem toByte_bits (b : UInt8) :
    ((b >>> 4) <<< 4) ||| (flagBit (b &&& 8 = 8) 8 ||| (((b >>> 1) &&& 3) <<< 1)
      ||| flagBit (b &&& 1 = 1) 1) = b := by
  have hbits : ∀ n : Fin 256, ((UInt8.ofFin n >>> 4) <<< 4) |||
      (flagBit (UInt8.ofFin n &&& 8 = 8) 8 ||| (((UInt8.ofFin n >>> 1) &&& 3) <<< 1)
        ||| flagBit (UInt8.ofFin n &&& 1 = 1) 1) = UInt8.ofFin n := by
    decide +kernel
  exact hbits b.toFin

namespace FixedHeader

/-- A first byte shows the number of its kind. -/
theorem shift_of_ofByte {b : UInt8} {h : FixedHeader} (hbyte : ofByte b = .ok h) :
    b >>> 4 = h.kind.code := by
  obtain ⟨kind, hkind, hbyte⟩ := bind_eq_ok hbyte
  obtain ⟨qos, -, hbyte⟩ := bind_eq_ok hbyte
  obtain rfl := Except.ok.inj hbyte
  unfold readKind at hkind
  split at hkind
  · next kind' hcode =>
      obtain rfl := Except.ok.inj hkind
      exact PacketKind.ofCode?_eq_some_iff.mp hcode
  · cases hkind

/-- A first byte that is read is written again. -/
theorem toByte_of_ofByte {b : UInt8} {h : FixedHeader} (hbyte : ofByte b = .ok h) :
    h.toByte = b := by
  have hshift := shift_of_ofByte hbyte
  obtain ⟨kind, -, hbyte⟩ := bind_eq_ok hbyte
  obtain ⟨qos, hqos, hbyte⟩ := bind_eq_ok hbyte
  obtain rfl := Except.ok.inj hbyte
  have hlevel : (b >>> 1) &&& 3 = qos.level := by
    unfold readQoS at hqos
    split at hqos
    · next qos' hlevel =>
        obtain rfl := Except.ok.inj hqos
        exact QoS.ofLevel?_eq_some_iff.mp hlevel
    · cases hqos
  show (kind.code <<< 4) ||| (flagBit (b &&& 8 = 8) 8 ||| (qos.level <<< 1)
    ||| flagBit (b &&& 1 = 1) 1) = b
  rw [← hlevel, ← (show b >>> 4 = kind.code from hshift)]
  exact toByte_bits b

/-- Among the headers of a kind, other than PUBLISH, the flags single out one. -/
theorem eq_header_of_flags {h : FixedHeader} (hkind : h.kind ≠ .publish)
    (hflags : h.toByte &&& 0x0F = h.kind.header.toByte &&& 0x0F) : h = h.kind.header := by
  obtain ⟨kind, retain, qos, duplicate⟩ := h
  cases kind <;> cases retain <;> cases qos <;> cases duplicate <;>
    first | rfl | exact absurd rfl hkind | exact absurd hflags (by decide)

/-- A first byte that passes the check on its flags has the header of its kind. -/
theorem eq_header_of_checkFlags {b : UInt8} {h : FixedHeader} (hbyte : ofByte b = .ok h)
    (hkind : h.kind ≠ .publish) (hcheck : h.kind.checkFlags (b &&& 0x0F) = .ok ()) :
    h = h.kind.header := by
  rw [PacketKind.checkFlags, PacketKind.requiredFlags_eq hkind, ← toByte_of_ofByte hbyte] at hcheck
  dsimp only at hcheck
  split at hcheck
  · next hflags => exact eq_header_of_flags hkind hflags
  · cases hcheck

end FixedHeader

/-! ### Bodies -/

/-- The body of a CONNACK without the bits that are reserved: all but the
lowest one of its first byte. -/
def clearReserved : List UInt8 → List UInt8
  | [] => []
  | b :: bs => (b &&& 1) :: bs

/-- No byte is added or left out. -/
theorem length_clearReserved (bs : List UInt8) : (clearReserved bs).length = bs.length := by
  cases bs <;> rfl

/-- The lowest bit of a byte, as a byte. -/
theorem and_one_eq (b : UInt8) : (if (b &&& 1 = 1 : Bool) then 1 else 0) = b &&& 1 := by
  have hbits : ∀ n : Fin 256,
      (if (UInt8.ofFin n &&& 1 = 1 : Bool) then 1 else 0) = UInt8.ofFin n &&& 1 := by
    decide +kernel
  exact hbits b.toFin

/-- A verdict that is read is the one that is written with this number. -/
theorem eq_code_of_readConnectCode {n : UInt8} {code : ConnectCode}
    (h : readConnectCode n = .ok code) : n = code.code := by
  unfold readConnectCode at h
  split at h
  · next code' hcode =>
      obtain rfl := Except.ok.inj h
      exact ConnectCode.ofCode?_eq_some_iff.mp hcode
  · cases h

/-- So is a level. -/
theorem eq_level_of_readQoS {n : UInt8} {qos : QoS} (h : readQoS n = .ok qos) : n = qos.level := by
  unfold readQoS at h
  split at h
  · next qos' hlevel =>
      obtain rfl := Except.ok.inj h
      exact QoS.ofLevel?_eq_some_iff.mp hlevel
  · cases h

/-- So is the verdict of a SUBACK, with 128 for a refusal. -/
theorem eq_grantedByte_of_readGranted {n : UInt8} {granted : Option QoS}
    (h : readGranted n = .ok granted) : n = grantedByte granted := by
  unfold readGranted at h
  split at h
  · next hrefused =>
      obtain rfl := Except.ok.inj h
      exact hrefused
  · split at h
    · next qos hlevel =>
        obtain rfl := Except.ok.inj h
        exact QoS.ofLevel?_eq_some_iff.mp hlevel
    · cases h

namespace Packet

open Reader

/-- The body of a packet that has an identifier only. -/
theorem body_of_word {kind : PacketKind} {make : UInt16 → Packet} {body rest : List UInt8}
    {p : Packet} (hrun : (do return make (← Reader.word kind) : Reader Packet).run body
      = .ok (p, rest)) :
    ∃ i, p = make i ∧ body = wordBytes i ++ rest := by
  obtain ⟨i, hword, rfl⟩ := run_map_eq_ok hrun
  exact ⟨i, rfl, eq_append_of_word hword⟩

/-- The body of a message: at level 0 it has no identifier. -/
theorem body_of_message {retain duplicate : Bool} {qos : QoS} {body rest : List UInt8} {p : Packet}
    (hrun : (readBody ⟨.publish, retain, qos, duplicate⟩).run body = .ok (p, rest)) :
    ∃ m bytes, p = publish m ∧ (publish m).header = ⟨.publish, retain, qos, duplicate⟩ ∧
      (publish m).body = .ok bytes ∧ body = bytes ∧ rest = [] := by
  obtain ⟨topic, later, htopic, hlater⟩ := run_bind_eq_ok hrun
  obtain ⟨field, hfield, hfront⟩ := eq_append_of_text htopic
  -- The identifier is a parameter here: at level 0 none is written, whatever it is.
  have hbody : ∀ packetId payload, (publish ⟨topic, payload, qos, retain, duplicate, packetId⟩).body
      = .ok (field ++ ((if qos = .atMostOnce then [] else wordBytes packetId) ++ payload)) := by
    intro packetId payload
    show (do
      let topic ← textField topic
      return topic ++ ((if qos = QoS.atMostOnce then [] else wordBytes packetId) ++ payload)) = _
    rw [hfield]
    rfl
  dsimp only at hlater
  by_cases hqos : qos = .atMostOnce
  · rw [if_pos hqos] at hlater
    obtain ⟨rfl, rfl⟩ := Prod.mk.inj (Except.ok.inj hlater)
    exact ⟨_, _, rfl, rfl, hbody 0 later, by rw [hfront, if_pos hqos]; rfl, rfl⟩
  · rw [if_neg hqos] at hlater
    obtain ⟨packetId, payload, hpacketId, hpayload⟩ := run_bind_eq_ok hlater
    obtain ⟨rfl, rfl⟩ := Prod.mk.inj (Except.ok.inj hpayload)
    refine ⟨_, _, rfl, rfl, hbody packetId payload, ?_, rfl⟩
    rw [hfront, if_neg hqos, eq_append_of_word hpacketId]

/-- A packet is of the kind that its header told, and its body is written as
it was read. -/
theorem body_of_readBody {h : FixedHeader} {body rest : List UInt8} {p : Packet}
    (hrun : (readBody h).run body = .ok (p, rest)) :
    p.kind = h.kind ∧ p.kind ≠ .connect ∧ (h.kind = .publish → p.header = h) ∧
      ∃ bytes, p.body = .ok bytes ∧
        (if h.kind = .connAck then clearReserved body else body) = bytes ++ rest := by
  obtain ⟨kind, retain, qos, duplicate⟩ := h
  cases kind with
  | connect => cases hrun
  | connAck =>
      obtain ⟨flags, later, hflags, hrun⟩ := run_bind_eq_ok hrun
      obtain ⟨n, later, hn, hrun⟩ := run_bind_eq_ok hrun
      obtain ⟨code, hcheck, rfl⟩ := run_map_eq_ok hrun
      obtain ⟨hcode, rfl⟩ := run_lift_eq_ok hcheck
      refine ⟨rfl, by simp [Packet.kind], by simp, _, rfl, ?_⟩
      -- Only the first byte may differ: its reserved bits were read past, and are written as
      -- zero.
      rw [eq_cons_of_byte hflags, eq_cons_of_byte hn, eq_code_of_readConnectCode hcode]
      exact congrArg (· :: code.code :: later) (and_one_eq flags).symm
  | publish =>
      obtain ⟨m, bytes, rfl, hheader, hbody, rfl, rfl⟩ := body_of_message hrun
      exact ⟨rfl, by simp [Packet.kind], fun _ => hheader, body, hbody, (List.append_nil _).symm⟩
  | subscribe =>
      obtain ⟨packetId, later, hpacketId, hrun⟩ := run_bind_eq_ok hrun
      obtain ⟨topic, later', htopic, hrun⟩ := run_bind_eq_ok hrun
      obtain ⟨n, last, hn, hrun⟩ := run_bind_eq_ok hrun
      obtain ⟨level, hcheck, rfl⟩ := run_map_eq_ok hrun
      obtain ⟨hlevel, rfl⟩ := run_lift_eq_ok hcheck
      obtain ⟨field, hfield, rfl⟩ := eq_append_of_text htopic
      refine ⟨rfl, by simp [Packet.kind], by simp,
        wordBytes packetId ++ (field ++ [level.level]), ?_, ?_⟩
      · show (do
          let topic ← textField topic
          return wordBytes packetId ++ (topic ++ [level.level])) = _
        rw [hfield]
        rfl
      · rw [eq_append_of_word hpacketId, eq_cons_of_byte hn, eq_level_of_readQoS hlevel]
        simp
  | subAck =>
      obtain ⟨packetId, later, hpacketId, hrun⟩ := run_bind_eq_ok hrun
      obtain ⟨n, last, hn, hrun⟩ := run_bind_eq_ok hrun
      obtain ⟨granted, hcheck, rfl⟩ := run_map_eq_ok hrun
      obtain ⟨hgranted, rfl⟩ := run_lift_eq_ok hcheck
      refine ⟨rfl, by simp [Packet.kind], by simp, _, rfl, ?_⟩
      rw [eq_append_of_word hpacketId, eq_cons_of_byte hn, eq_grantedByte_of_readGranted hgranted]
      simp
  | unsubscribe =>
      obtain ⟨packetId, later, hpacketId, hrun⟩ := run_bind_eq_ok hrun
      obtain ⟨topic, htopic, rfl⟩ := run_map_eq_ok hrun
      obtain ⟨field, hfield, rfl⟩ := eq_append_of_text htopic
      refine ⟨rfl, by simp [Packet.kind], by simp, wordBytes packetId ++ field, ?_, ?_⟩
      · show (do
          let topic ← textField topic
          return wordBytes packetId ++ topic) = _
        rw [hfield]
        rfl
      · rw [eq_append_of_word hpacketId]
        simp
  | pubAck | pubRec | pubRel | pubComp | unsubAck =>
      obtain ⟨i, rfl, rfl⟩ := body_of_word hrun
      exact ⟨rfl, by simp [Packet.kind], by simp, wordBytes i, rfl, rfl⟩
  | pingReq | pingResp | disconnect =>
      obtain ⟨rfl, rfl⟩ := Prod.mk.inj (Except.ok.inj hrun)
      exact ⟨rfl, by simp [Packet.kind], by simp, [], rfl, rfl⟩

/-- A body that is read whole is read to its end. -/
theorem run_of_decodeWhole {h : FixedHeader} {body : List UInt8} {p : Packet}
    (hwhole : decodeWhole h body = .ok p) : (readBody h).run body = .ok (p, []) := by
  obtain ⟨⟨p', rest⟩, hrun, hend⟩ := bind_eq_ok hwhole
  dsimp only at hend
  split at hend
  · next hempty =>
      obtain rfl := Except.ok.inj hend
      rw [hrun, List.isEmpty_iff.mp hempty]
  · cases hend

end Packet

/-! ### Frames -/

namespace Frame

/-- A frame without the bits that carry no meaning. -/
def canonical (frame : Frame) : Frame :=
  if frame.first >>> 4 = PacketKind.connAck.code then
    { frame with body := clearReserved frame.body }
  else frame

/-- The bytes of a frame with a given length field. -/
def bytes (frame : Frame) (field : List UInt8) : List UInt8 :=
  frame.first :: (field ++ frame.body)

/-- The bits without meaning are all in the body. -/
theorem first_canonical (frame : Frame) : frame.canonical.first = frame.first := by
  unfold canonical
  split <;> rfl

/-- So the length field stays right. -/
theorem length_canonical (frame : Frame) :
    frame.canonical.body.length = frame.body.length := by
  unfold canonical
  split
  · exact length_clearReserved frame.body
  · rfl

/-- Reserved bits are not looked at. -/
theorem decodeWhole_clearReserved {h : FixedHeader} (hkind : h.kind = .connAck)
    (body : List UInt8) :
    Packet.decodeWhole h (clearReserved body) = Packet.decodeWhole h body := by
  cases body with
  | nil => rfl
  | cons b bs =>
      have hbit : b &&& 1 &&& 1 = b &&& 1 := by rw [UInt8.and_assoc, UInt8.and_self]
      have hread : (Packet.readBody h).run ((b &&& 1) :: bs)
          = (Packet.readBody h).run (b :: bs) := by
        obtain ⟨kind, retain, qos, duplicate⟩ := h
        obtain rfl : kind = .connAck := hkind
        show StateT.run (do
            let code ← readConnectCode (← Reader.byte .connAck)
            return Packet.connAck (b &&& 1 &&& 1 = 1) code) bs = _
        rw [hbit]
        rfl
      unfold Packet.decodeWhole
      rw [clearReserved, hread]

/-- A frame is read as the same packet without them. -/
theorem decode_canonical (frame : Frame) : frame.canonical.decode = frame.decode := by
  unfold canonical
  split
  · next hfirst =>
      unfold decode
      dsimp only
      cases hbyte : FixedHeader.ofByte frame.first with
      | error e => rfl
      | ok h =>
          have hkind : h.kind = .connAck := by
            have hcode := (FixedHeader.shift_of_ofByte hbyte).symm.trans hfirst
            exact Option.some.inj ((PacketKind.ofCode?_code h.kind).symm.trans
              (hcode ▸ PacketKind.ofCode?_code .connAck))
          show (do
              h.kind.checkFlags (frame.first &&& 0x0F)
              Packet.decodeWhole h (clearReserved frame.body)) = _
          rw [decodeWhole_clearReserved hkind]
          rfl
  · rfl

/-- The packet of a frame has its first byte, and its body up to reserved bits. -/
theorem eq_of_decode {frame : Frame} {p : Packet} (h : frame.decode = .ok p) :
    p.kind ≠ .connect ∧ p.header.toByte = frame.first ∧ p.body = .ok frame.canonical.body := by
  obtain ⟨header, hbyte, h⟩ := bind_eq_ok h
  obtain ⟨_, hcheck, hwhole⟩ := bind_eq_ok h
  obtain ⟨hkind, hconnect, hpublish, body, hbody, hcanonical⟩ :=
    Packet.body_of_readBody (Packet.run_of_decodeWhole hwhole)
  have hshift := FixedHeader.shift_of_ofByte hbyte
  have hheader : p.header = header := by
    by_cases hmessage : header.kind = .publish
    · exact hpublish hmessage
    · rw [Packet.header_eq_of_kind (hkind ▸ hmessage), hkind]
      exact (FixedHeader.eq_header_of_checkFlags hbyte hmessage hcheck).symm
  refine ⟨hconnect, by rw [hheader]; exact FixedHeader.toByte_of_ofByte hbyte, ?_⟩
  rw [hbody, ← List.append_nil body, ← hcanonical, canonical]
  by_cases hconnAck : header.kind = .connAck
  · rw [if_pos hconnAck, if_pos (by rw [hshift, hconnAck])]
  · rw [if_neg hconnAck, if_neg]
    intro hcode
    refine hconnAck (Option.some.inj ((PacketKind.ofCode?_code header.kind).symm.trans ?_))
    rw [← hshift, hcode]
    rfl

/-- The packet of a frame is written as the frame, with the shortest length field. -/
theorem encode_of_decode {frame : Frame} {p : Packet} (h : frame.decode = .ok p)
    (hlength : encodeLength frame.body.length = .ok (lengthBytes frame.body.length)) :
    p.encode = .ok (frame.canonical.bytes (lengthBytes frame.body.length)) := by
  obtain ⟨-, hfirst, hbody⟩ := eq_of_decode h
  rw [Packet.encode_of_body hbody, length_canonical, hlength, hfirst, bytes, first_canonical]
  rfl

/-- Whether some bytes are a length field for `n`, be it longer than it has to be. -/
def Announces (field : List UInt8) (n : Nat) : Prop :=
  decodeLength field = .ok (some ⟨n, field.length, []⟩)

/-- A length that some field announces can be written, in no more bytes. -/
theorem Announces.shortest {field : List UInt8} {n : Nat} (h : Announces field n) :
    encodeLength n = .ok (lengthBytes n) ∧ (lengthBytes n).length ≤ field.length := by
  obtain ⟨field', hfield, -, hwrite, hle⟩ := exists_field_of_decodeLength h
  rw [List.append_nil] at hfield
  exact ⟨hwrite, hfield ▸ hle⟩

/-- A frame is taken off with whatever length field it has. -/
theorem split?_bytes {frame : Frame} {field : List UInt8}
    (h : Announces field frame.body.length) (rest : List UInt8) :
    split? (frame.bytes field ++ rest) = .ok (some (frame, rest)) := by
  have hread := decodeLength_append_of_some h (frame.body ++ rest)
  rw [bytes, List.cons_append, List.append_assoc, split?, hread]
  dsimp only
  rw [List.nil_append, cut?_eq, if_pos (by rw [List.length_append]; omega), List.take_left,
    List.drop_left]

/-- A frame that is taken off has a length field in front of its body. -/
theorem exists_bytes_of_split? {bs rest : List UInt8} {frame : Frame}
    (h : split? bs = .ok (some (frame, rest))) :
    ∃ field, bs = frame.bytes field ++ rest ∧ Announces field frame.body.length := by
  cases bs with
  | nil => cases h
  | cons first bs =>
      rw [split?] at h
      split at h
      · cases h
      · cases h
      · next f hf =>
          obtain ⟨field, hbs, hread, -⟩ := exists_field_of_decodeLength hf
          rw [cut?_eq] at h
          by_cases hle : f.value ≤ f.rest.length
          · rw [if_pos hle] at h
            obtain ⟨rfl, rfl⟩ := Prod.mk.inj (Option.some.inj (Except.ok.inj h))
            refine ⟨field, ?_, ?_⟩
            · rw [hbs, bytes, List.cons_append, List.append_assoc, List.take_append_drop]
            · rw [Announces, List.length_take_of_le hle]
              exact hread
          · rw [if_neg hle] at h
            cases h

end Frame

namespace Packet

open Mqtt.Frame

/-- Reading a packet is taking off its frame and reading that. -/
theorem decode_eq_some_iff {bs rest : List UInt8} {p : Packet} :
    decode bs = .ok (some (p, rest)) ↔
      ∃ frame, split? bs = .ok (some (frame, rest)) ∧ frame.decode = .ok p := by
  unfold decode
  constructor
  · intro h
    split at h
    · cases h
    · cases h
    · next frame rest' hsplit =>
        split at h
        · cases h
        · next packet hdecode =>
            obtain ⟨rfl, rfl⟩ := Prod.mk.inj (Option.some.inj (Except.ok.inj h))
            exact ⟨frame, hsplit, hdecode⟩
  · rintro ⟨frame, hsplit, hdecode⟩
    rw [hsplit]
    dsimp only
    rw [hdecode]

/-- A frame in front of others is read if it can be read by itself. -/
theorem decode_bytes_iff {frame : Frame} {field : List UInt8}
    (h : Announces field frame.body.length) {rest : List UInt8} {p : Packet} :
    decode (frame.bytes field ++ rest) = .ok (some (p, rest)) ↔ frame.decode = .ok p := by
  rw [decode_eq_some_iff, split?_bytes h rest]
  constructor
  · rintro ⟨frame', heq, hdecode⟩
    obtain ⟨rfl, -⟩ := Prod.mk.inj (Option.some.inj (Except.ok.inj heq))
    exact hdecode
  · exact fun hdecode => ⟨frame, rfl, hdecode⟩

/-- A frame that a packet is written as is read. -/
theorem exists_decode_of_encode {frame : Frame} {p : Packet} (hkind : p.kind ≠ .connect)
    (hlength : encodeLength frame.body.length = .ok (lengthBytes frame.body.length))
    (h : p.encode = .ok (frame.canonical.bytes (lengthBytes frame.body.length))) :
    frame.decode = .ok p.normal := by
  rw [← length_canonical] at hlength h
  obtain ⟨frame', hsplit, hdecode⟩ := decode_eq_some_iff.mp (decode_append_of_kind hkind h [])
  have hframe := split?_append frame.canonical.first hlength []
  rw [← decode_canonical]
  obtain ⟨rfl, -⟩ := Prod.mk.inj (Option.some.inj (Except.ok.inj (hframe.symm.trans hsplit)))
  exact hdecode

/-- Writing undoes reading. A packet that is read is written as the frame that
it was read from, with the shortest length field and without reserved bits. So
the frames that are accepted are those of the packets that can be written,
other than CONNECT, and no two of them are read as the same packet: they
differ in their length fields and in reserved bits at most. -/
theorem encode_undoes_decode :
    (∀ (bs rest : List UInt8) (p : Packet), decode bs = .ok (some (p, rest)) →
      ∃ (frame : Frame) (field : List UInt8),
        bs = frame.bytes field ++ rest ∧ Announces field frame.body.length ∧
        p.kind ≠ .connect ∧ (lengthBytes frame.body.length).length ≤ field.length ∧
        p.encode = .ok (frame.canonical.bytes (lengthBytes frame.body.length))) ∧
    (∀ (frame : Frame) (field rest : List UInt8), Announces field frame.body.length →
      ((∃ p, decode (frame.bytes field ++ rest) = .ok (some (p, rest))) ↔
        ∃ p : Packet, p.kind ≠ .connect ∧
          p.encode = .ok (frame.canonical.bytes (lengthBytes frame.body.length)))) ∧
    (∀ (frame frame' : Frame) (field field' rest rest' : List UInt8) (p : Packet),
      Announces field frame.body.length → Announces field' frame'.body.length →
      decode (frame.bytes field ++ rest) = .ok (some (p, rest)) →
      decode (frame'.bytes field' ++ rest') = .ok (some (p, rest')) →
      frame.canonical = frame'.canonical) := by
  refine ⟨?_, ?_, ?_⟩
  · intro bs rest p h
    obtain ⟨frame, hsplit, hdecode⟩ := decode_eq_some_iff.mp h
    obtain ⟨field, hbs, hfield⟩ := exists_bytes_of_split? hsplit
    obtain ⟨hlength, hle⟩ := hfield.shortest
    exact ⟨frame, field, hbs, hfield, (eq_of_decode hdecode).1, hle,
      encode_of_decode hdecode hlength⟩
  · intro frame field rest hfield
    constructor
    · rintro ⟨p, h⟩
      have hdecode := (decode_bytes_iff hfield).mp h
      exact ⟨p, (eq_of_decode hdecode).1, encode_of_decode hdecode hfield.shortest.1⟩
    · rintro ⟨p, hkind, h⟩
      exact ⟨p.normal, (decode_bytes_iff hfield).mpr
        (exists_decode_of_encode hkind hfield.shortest.1 h)⟩
  · intro frame frame' field field' rest rest' p hfield hfield' h h'
    -- Both are the first byte and the body that the packet is written with.
    obtain ⟨-, hfirst, hbody⟩ := eq_of_decode ((decode_bytes_iff hfield).mp h)
    obtain ⟨-, hfirst', hbody'⟩ := eq_of_decode ((decode_bytes_iff hfield').mp h')
    have hfirst := (frame.first_canonical.trans hfirst.symm).trans
      (hfirst'.trans frame'.first_canonical.symm)
    have hbody := Except.ok.inj (hbody.symm.trans hbody')
    calc frame.canonical
      _ = ⟨frame.canonical.first, frame.canonical.body⟩ := rfl
      _ = ⟨frame'.canonical.first, frame'.canonical.body⟩ := by rw [hfirst, hbody]

/-- A CONNACK with a length field of three bytes and with reserved bits, and
what it is written as. A CONNACK without them is the same packet. -/
theorem encode_undoes_decode_connAck :
    (∃ (frame : Frame) (field : List UInt8),
      [0x20, 0x82, 0x80, 0x00, 0xFF, 0x05, 0x30] = frame.bytes field ++ [0x30] ∧
      Announces field frame.body.length ∧ (connAck true .notAuthorized).kind ≠ .connect ∧
      (lengthBytes frame.body.length).length ≤ field.length ∧
      (connAck true .notAuthorized).encode
        = .ok (frame.canonical.bytes (lengthBytes frame.body.length))) ∧
    (∃ p : Packet, p.kind ≠ .connect ∧
      p.encode = .ok ((⟨0x20, [0xFF, 0x05]⟩ : Frame).canonical.bytes (lengthBytes 2))) ∧
    (⟨0x20, [0xFF, 0x05]⟩ : Frame).canonical = (⟨0x20, [0x01, 0x05]⟩ : Frame).canonical :=
  ⟨encode_undoes_decode.1 [0x20, 0x82, 0x80, 0x00, 0xFF, 0x05, 0x30] [0x30] _ rfl,
    (encode_undoes_decode.2.1 ⟨0x20, [0xFF, 0x05]⟩ [0x82, 0x80, 0x00] [] rfl).mp
      ⟨connAck true .notAuthorized, rfl⟩,
    encode_undoes_decode.2.2 ⟨0x20, [0xFF, 0x05]⟩ ⟨0x20, [0x01, 0x05]⟩ [0x82, 0x80, 0x00] [0x02]
      [] [] (connAck true .notAuthorized) rfl rfl rfl rfl⟩

end Packet

end Mqtt
