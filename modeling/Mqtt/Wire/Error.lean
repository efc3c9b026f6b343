import Mqtt.Utf8
import Mqtt.Packet.Kind

/-!
# `Mqtt.Wire.Error`: what can be wrong with a packet on the wire

One constructor for each cause, and one sentence for each constructor.
-/

set_option autoImplicit false

namespace Mqtt

/-- Why a packet cannot be written or read. -/
inductive WireError where
  /-- The body has more bytes than a length field can tell. -/
  | packetTooBig (size : Nat)
  /-- A text or a will payload has more bytes than its prefix can tell. -/
  | stringTooBig (length : Nat)
  /-- A text holds U+0000. -/
  | invalidString (text : String)
  /-- The bytes of a text are no UTF-8. -/
  | stringNotUtf8 (fault : Utf8.Fault)
  | unknownPacketKind (code : UInt8)
  | invalidQoS (level : UInt8)
  /-- The flags of a fixed header are not those of its kind. -/
  | invalidFlags (kind : PacketKind) (flags : UInt8)
  | invalidConnectCode (code : UInt8)
  | invalidSubAckCode (code : UInt8)
  /-- The length field does not end within four bytes. -/
  | malformedLength
  /-- The body lacks a field, or has bytes after the last one. -/
  | malformedBody (kind : PacketKind)
  /-- Packets of this kind are only ever written. -/
  | unsupportedDecode (kind : PacketKind)
  deriving DecidableEq, Repr

namespace WireError

/-- Four binary digits. -/
def binary4 (n : UInt8) : String :=
  String.ofList ([3, 2, 1, 0].map fun i => if n.toNat.testBit i then '1' else '0')

/-- The sentence that describes an error. -/
def message : WireError → String
  | packetTooBig size =>
      "Packet size exceeded maximum size. Encoded size is " ++ toString size ++ "."
  | stringTooBig length =>
      "A string of " ++ toString length ++ " bytes is too big for a MQTT UTF-8 string."
  | invalidString text => "'" ++ text ++ "' contains the null character."
  | stringNotUtf8 fault => "String is not a valid UTF-8 string. " ++ fault.message
  | unknownPacketKind code => toString code ++ " is not a known MQTT packet type."
  | invalidQoS level => toString level ++ " is not a valid quality of service level."
  | invalidFlags kind flags =>
      "Flags 0b" ++ binary4 flags ++ " are not valid for a " ++ kind.name ++ " packet."
  | invalidConnectCode code => "'" ++ toString code ++ "' is not a valid connect return code."
  | invalidSubAckCode code => "'" ++ toString code ++ "' is not a valid subscribe return code."
  | malformedLength => "Remaining length field uses more than 4 bytes."
  | malformedBody kind => "Error occurred while parsing " ++ kind.name ++ " packet."
  | unsupportedDecode kind =>
      "Decoding " ++ kind.name ++ " packets is not supported by a client."

end WireError

end Mqtt
