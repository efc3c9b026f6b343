/-!
# `Mqtt.Packet.Kind`: the fourteen kinds of control packet

Every packet starts with a byte whose upper half tells its kind.
`PacketKind.code` is that half, `PacketKind.ofCode?` reads it back, and
`PacketKind.name` is how a sentence names the kind.
-/

set_option autoImplicit false

namespace Mqtt

/-- The kinds of control packet. -/
inductive PacketKind where
  | connect
  | connAck
  | publish
  | pubAck
  | pubRec
  | pubRel
  | pubComp
  | subscribe
  | subAck
  | unsubscribe
  | unsubAck
  | pingReq
  | pingResp
  | disconnect
  deriving DecidableEq, Repr, Inhabited

namespace PacketKind

/-- The number of a kind, from 1 to 14. -/
def code : PacketKind → UInt8
  | connect => 1
  | connAck => 2
  | publish => 3
  | pubAck => 4
  | pubRec => 5
  | pubRel => 6
  | pubComp => 7
  | subscribe => 8
  | subAck => 9
  | unsubscribe => 10
  | unsubAck => 11
  | pingReq => 12
  | pingResp => 13
  | disconnect => 14

/-- The kind with a given number; 0 and everything above 14 have none. -/
def ofCode? : UInt8 → Option PacketKind
  | 1 => some connect
  | 2 => some connAck
  | 3 => some publish
  | 4 => some pubAck
  | 5 => some pubRec
  | 6 => some pubRel
  | 7 => some pubComp
  | 8 => some subscribe
  | 9 => some subAck
  | 10 => some unsubscribe
  | 11 => some unsubAck
  | 12 => some pingReq
  | 13 => some pingResp
  | 14 => some disconnect
  | _ => none

/-- A kind is found by its number. -/
theorem ofCode?_code (k : PacketKind) : ofCode? k.code = some k := by
  cases k <;> rfl

/-- No other kind has this number. -/
theorem ofCode?_eq_some_iff {n : UInt8} {k : PacketKind} : ofCode? n = some k ↔ n = k.code := by
  constructor
  · intro h
    unfold ofCode? at h
    split at h <;> cases h <;> rfl
  · rintro rfl
    exact k.ofCode?_code

/-- The name of a kind, as it stands in messages. -/
def name : PacketKind → String
  | connect => "CONNECT"
  | connAck => "CONN_ACK"
  | publish => "PUBLISH"
  | pubAck => "PUBACK"
  | pubRec => "PUBREC"
  | pubRel => "PUBREL"
  | pubComp => "PUBCOMP"
  | subscribe => "SUBSCRIBE"
  | subAck => "SUBACK"
  | unsubscribe => "UNSUBSCRIBE"
  | unsubAck => "UNSUBACK"
  | pingReq => "PINGREQ"
  | pingResp => "PINGRESP"
  | disconnect => "DISCONNECT"

end PacketKind

end Mqtt
