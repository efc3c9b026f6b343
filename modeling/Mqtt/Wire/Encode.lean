import Mqtt.Wire.Connect

/-!
# `Mqtt.Wire.Encode`: packets as bytes

`Packet.encode` writes a packet: the fixed header, the length of the
body, the body. The fields of a body are written in the order of the
layout, so the first field at fault is the one that is reported.

* `Packet.writeTo` appends a packet to a buffer, or leaves the buffer as
  it was.
-/

set_option autoImplicit false

namespace Mqtt

namespace Packet

/-- The body of a packet. -/
def body : Packet → Except WireError (List UInt8)
  | connect c => c.body
  | connAck sessionPresent code => .ok [if sessionPresent then 1 else 0, code.code]
  | publish m => do
      let topic ← textField m.topic
      return topic ++ ((if m.qos = .atMostOnce then [] else wordBytes m.packetId) ++ m.payload)
  | pubAck i | pubRec i | pubRel i | pubComp i | unsubAck i => .ok (wordBytes i)
  | subscribe r => do
      let topic ← textField r.topic
      return wordBytes r.packetId ++ (topic ++ [r.qos.level])
  | subAck i granted => .ok (wordBytes i ++ [grantedByte granted])
  | unsubscribe r => do
      let topic ← textField r.topic
      return wordBytes r.packetId ++ topic
  | pingReq | pingResp | disconnect => .ok []

/-- The bytes of a packet. -/
def encode (p : Packet) : Except WireError (List UInt8) := do
  let body ← p.body
  let header ← p.header.encode body.length
  return header ++ body

/-- With its body at hand a packet is its first byte, the length field and the body, if
the length can be told. -/
theorem encode_of_body {p : Packet} {body : List UInt8} (h : p.body = .ok body) :
    p.encode
      = (encodeLength body.length).map fun field => p.header.toByte :: (field ++ body) := by
  rw [encode, h]
  show (p.header.encode body.length >>= fun header => .ok (header ++ body)) = _
  rw [FixedHeader.encode]
  cases encodeLength body.length <;> rfl

/-- Appends the bytes of a packet to a buffer. A packet that cannot be
written leaves the buffer as it was. -/
def writeTo (p : Packet) (buffer : List UInt8) : Option WireError × List UInt8 :=
  match p.encode with
  | .ok bytes => (none, buffer ++ bytes)
  | .error e => (some e, buffer)

end Packet

end Mqtt
