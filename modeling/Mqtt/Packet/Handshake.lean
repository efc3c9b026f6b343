/-!
# `Mqtt.Packet.Handshake`: what CONNECT and CONNACK agree on

`ProtocolLevel` is the version a client asks for and `ConnectCode` the
server's verdict.
-/

set_option autoImplicit false

namespace Mqtt

/-- The version of the protocol that a connection speaks. -/
inductive ProtocolLevel where
  /-- MQTT 3.1. -/
  | v31
  /-- MQTT 3.1.1. -/
  | v311
  deriving DecidableEq, Repr, Inhabited

namespace ProtocolLevel

/-- The number of a version. -/
def level : ProtocolLevel → UInt8
  | v31 => 3
  | v311 => 4

/-- The version with a given number. -/
def ofLevel? (n : Int) : Option ProtocolLevel :=
  if n = 3 then some v31 else if n = 4 then some v311 else none

/-- The protocol name that a CONNECT of this version starts with. -/
def protocolName : ProtocolLevel → String
  | v31 => "MQIsdp"
  | v311 => "MQTT"

end ProtocolLevel

/-- The server's answer to a CONNECT. -/
inductive ConnectCode where
  | accepted
  | badProtocolLevel
  | clientIdRejected
  | serverUnavailable
  | badCredentials
  | notAuthorized
  deriving DecidableEq, Repr, Inhabited

namespace ConnectCode

/-- The number of an answer. -/
def code : ConnectCode → UInt8
  | accepted => 0
  | badProtocolLevel => 1
  | clientIdRejected => 2
  | serverUnavailable => 3
  | badCredentials => 4
  | notAuthorized => 5

/-- The answer with a given number. -/
def ofCode? : UInt8 → Option ConnectCode
  | 0 => some accepted
  | 1 => some badProtocolLevel
  | 2 => some clientIdRejected
  | 3 => some serverUnavailable
  | 4 => some badCredentials
  | 5 => some notAuthorized
  | _ => none

/-- A verdict is found by its number. -/
theorem ofCode?_code (c : ConnectCode) : ofCode? c.code = some c := by
  cases c <;> rfl

/-- No other verdict has this number. -/
theorem ofCode?_eq_some_iff {n : UInt8} {c : ConnectCode} : ofCode? n = some c ↔ n = c.code := by
  constructor
  · intro h
    unfold ofCode? at h
    split at h <;> cases h <;> rfl
  · rintro rfl
    exact c.ofCode?_code

/-- The sentence that explains an answer. -/
def description : ConnectCode → String
  | accepted => "0x00 Connection Accepted"
  | badProtocolLevel => "0x01 Connection Refused, unacceptable protocol version"
  | clientIdRejected => "0x02 Connection Refused, identifier rejected"
  | serverUnavailable => "0x03 Connection Refused, Server unavailable"
  | badCredentials => "0x04 Connection Refused, bad user name or password"
  | notAuthorized => "0x05 Connection Refused, not authorized"

end ConnectCode

end Mqtt
