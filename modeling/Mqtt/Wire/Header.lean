import Mqtt.Packet.Basic
import Mqtt.Wire.Length

/-!
# `Mqtt.Wire.Header`: codes and the first byte of a packet

The upper half of the first byte is the packet's kind, the lower half
holds flags: duplicate, two bits of level, retain. The functions of this
module read numbers as kinds, levels and verdicts and say which number
had no meaning; of two faults in a first byte, the kind is reported.
-/

set_option autoImplicit false

namespace Mqtt

/-- Reads the number of a kind. -/
def readKind (n : UInt8) : Except WireError PacketKind :=
  match PacketKind.ofCode? n with
  | some kind => .ok kind
  | none => .error (.unknownPacketKind n)

/-- Reads the number of a level. -/
def readQoS (n : UInt8) : Except WireError QoS :=
  match QoS.ofLevel? n with
  | some qos => .ok qos
  | none => .error (.invalidQoS n)

/-- Reads the verdict of a CONNACK. -/
def readConnectCode (n : UInt8) : Except WireError ConnectCode :=
  match ConnectCode.ofCode? n with
  | some code => .ok code
  | none => .error (.invalidConnectCode n)

/-- The byte by which a SUBACK tells the granted level; 0x80 is a refusal. -/
def grantedByte : Option QoS → UInt8
  | none => 0x80
  | some qos => qos.level

/-- Reads the verdict of a SUBACK. -/
def readGranted (n : UInt8) : Except WireError (Option QoS) :=
  if n = 0x80 then .ok none
  else
    match QoS.ofLevel? n with
    | some qos => .ok (some qos)
    | none => .error (.invalidSubAckCode n)

/-- A bit of a flags byte: `bit` if it is set. -/
def flagBit (set : Bool) (bit : UInt8) : UInt8 :=
  if set then bit else 0

/-- The first byte of a packet, unpacked. -/
structure FixedHeader where
  kind : PacketKind
  retain : Bool
  qos : QoS
  duplicate : Bool
  deriving DecidableEq, Repr, Inhabited

namespace FixedHeader

/-- The lower half of the first byte. -/
def flags (h : FixedHeader) : UInt8 :=
  flagBit h.duplicate 8 ||| (h.qos.level <<< 1) ||| flagBit h.retain 1

/-- The first byte. -/
def toByte (h : FixedHeader) : UInt8 :=
  (h.kind.code <<< 4) ||| h.flags

/-- Unpacks a first byte. -/
def ofByte (b : UInt8) : Except WireError FixedHeader := do
  let kind ← readKind (b >>> 4)
  let qos ← readQoS ((b >>> 1) &&& 3)
  return { kind, retain := b &&& 1 = 1, qos, duplicate := b &&& 8 = 8 }

/-- The header of a packet whose body has `length` bytes. -/
def encode (h : FixedHeader) (length : Nat) : Except WireError (List UInt8) := do
  return h.toByte :: (← encodeLength length)

end FixedHeader

/-- The fixed header of a packet. Only a PUBLISH has flags of its own. -/
def Packet.header : Packet → FixedHeader
  | .publish m => ⟨.publish, m.retain, m.qos, m.duplicate⟩
  | p => ⟨p.kind, false, p.qos, false⟩

/-- The flags that a packet of a kind must have; none where any will do. -/
def PacketKind.requiredFlags : PacketKind → Option UInt8
  | .publish => none
  | .subscribe | .unsubscribe | .pubRel => some 2
  | _ => some 0

/-- Checks the lower half of a first byte against the kind of packet. -/
def PacketKind.checkFlags (kind : PacketKind) (flags : UInt8) : Except WireError Unit :=
  match kind.requiredFlags with
  | none => .ok ()
  | some required => if flags = required then .ok () else .error (.invalidFlags kind flags)

end Mqtt
