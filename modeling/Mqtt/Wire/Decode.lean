import Mqtt.Wire.Field
import Mqtt.Wire.Header

/-!
# `Mqtt.Wire.Decode`: packets from bytes

A frame is a first byte, a length field and a body. `Frame.split?` takes
a frame off a byte string, `Frame.decode` reads it, and `Packet.decode`
does both. A body is read field by field from left to
right, and bytes after the last field are an error. A client never has
to read a CONNECT.

* `Frame.split?_shortens`: taking a frame off uses up bytes, so
  `Packet.decodeAll` ends.
-/

set_option autoImplicit false

namespace Mqtt

namespace Packet

/-- Reads the body of a packet with a given header. -/
def readBody (h : FixedHeader) : Reader Packet :=
  match h.kind with
  | .connect => throw (.unsupportedDecode .connect)
  | .connAck => do
      let flags ← Reader.byte h.kind
      let code ← readConnectCode (← Reader.byte h.kind)
      return connAck (flags &&& 1 = 1) code
  | .publish => do
      let topic ← Reader.text h.kind
      let packetId ← if h.qos = .atMostOnce then pure 0 else Reader.word h.kind
      let payload ← Reader.rest
      return publish
        { topic, payload, qos := h.qos, retain := h.retain, duplicate := h.duplicate, packetId }
  | .pubAck => return pubAck (← Reader.word h.kind)
  | .pubRec => return pubRec (← Reader.word h.kind)
  | .pubRel => return pubRel (← Reader.word h.kind)
  | .pubComp => return pubComp (← Reader.word h.kind)
  | .subscribe => do
      let packetId ← Reader.word h.kind
      let topic ← Reader.text h.kind
      let qos ← readQoS (← Reader.byte h.kind)
      return subscribe { packetId, topic, qos }
  | .subAck => do
      let packetId ← Reader.word h.kind
      let granted ← readGranted (← Reader.byte h.kind)
      return subAck packetId granted
  | .unsubscribe => do
      let packetId ← Reader.word h.kind
      let topic ← Reader.text h.kind
      return unsubscribe { packetId, topic }
  | .unsubAck => return unsubAck (← Reader.word h.kind)
  | .pingReq => return pingReq
  | .pingResp => return pingResp
  | .disconnect => return disconnect

/-- Reads a whole body. -/
def decodeWhole (h : FixedHeader) (body : List UInt8) : Except WireError Packet := do
  let (packet, rest) ← (readBody h).run body
  if rest.isEmpty then return packet else throw (.malformedBody h.kind)

end Packet

/-- A packet as it stands in a byte stream, less its length field. -/
structure Frame where
  first : UInt8
  body : List UInt8
  deriving DecidableEq, Repr

namespace Frame

/-- Takes a frame off the front of a byte string. The answer is none when
the frame is not complete yet. -/
def split? : List UInt8 → Except WireError (Option (Frame × List UInt8))
  | [] => .ok none
  | first :: bs =>
      match decodeLength bs with
      | .error e => .error e
      | .ok none => .ok none
      | .ok (some field) =>
          match cut? field.value field.rest with
          | none => .ok none
          | some (body, rest) => .ok (some (⟨first, body⟩, rest))

/-- Taking a frame off uses up bytes. -/
theorem split?_shortens {bs rest : List UInt8} {frame : Frame}
    (h : split? bs = .ok (some (frame, rest))) : rest.length < bs.length := by
  cases bs with
  | nil => simp [split?] at h
  | cons first bs =>
      simp only [split?] at h
      split at h
      · cases h
      · cases h
      · next field hfield =>
          have hlt := length_lt_of_decodeLength hfield
          rw [cut?_eq] at h
          split at h
          · cases h
          · next body rest' hcut =>
              split at hcut
              · cases hcut
                cases h
                simp only [List.length_drop, List.length_cons]
                omega
              · cases hcut

/-- Reads the packet of a frame. The first byte is checked before the body. -/
def decode (frame : Frame) : Except WireError Packet := do
  let header ← FixedHeader.ofByte frame.first
  header.kind.checkFlags (frame.first &&& 0x0F)
  Packet.decodeWhole header frame.body

/-- Reads the packet of a frame, and drops the reason of a failure. -/
def packet? (frame : Frame) : Option Packet :=
  frame.decode.toOption

end Frame

namespace Packet

/-- Reads the packet at the front of a byte string, together with the
bytes behind it. The answer is none when there are not enough bytes. -/
def decode (bs : List UInt8) : Except WireError (Option (Packet × List UInt8)) :=
  match Frame.split? bs with
  | .error e => .error e
  | .ok none => .ok none
  | .ok (some (frame, rest)) =>
      match frame.decode with
      | .error e => .error e
      | .ok packet => .ok (some (packet, rest))

/-- Reading a packet uses up bytes. -/
theorem decode_shortens {bs rest : List UInt8} {packet : Packet}
    (h : decode bs = .ok (some (packet, rest))) : rest.length < bs.length := by
  unfold decode at h
  split at h
  · cases h
  · cases h
  · next hsplit =>
      split at h
      · cases h
      · cases h
        exact Frame.split?_shortens hsplit

/-- The packets at the front of a byte string, what ended the reading, and
the bytes that were not read. -/
structure Decoded where
  packets : List Packet
  /-- The error that ended the reading; none when the bytes ran out. -/
  failure : Option WireError
  /-- The unread bytes; after an error they start with the bad frame. -/
  rest : List UInt8
  deriving DecidableEq, Repr

/-- Reads packets until one is incomplete or bad; `seen` holds the packets
before `bs`, the last one first. -/
def decodeAllFrom (seen : List Packet) (bs : List UInt8) : Decoded :=
  match h : decode bs with
  | .error e => ⟨seen.reverse, some e, bs⟩
  | .ok none => ⟨seen.reverse, none, bs⟩
  | .ok (some (packet, rest)) =>
      have : rest.length < bs.length := decode_shortens h
      decodeAllFrom (packet :: seen) rest
termination_by bs.length

/-- Reads packets until one is incomplete or bad. -/
def decodeAll (bs : List UInt8) : Decoded :=
  decodeAllFrom [] bs

end Packet

end Mqtt
