import Mqtt.Wire.Field
import Mqtt.Wire.Header

/-!
# `Mqtt.Wire.Connect`: the body of a CONNECT

A CONNECT has fields that may be left out. One of its bytes tells which
of them are there, and describes the will. An empty user name or
password counts as absent.

* `Connect.body` writes the body.
* `Connect.read` reads a body as a server does, led by the flags. What
  the body does not carry, the identifier and the duplicate flag of the
  will, is zero and false.
-/

set_option autoImplicit false

namespace Mqtt

/-- Drops a credential that is empty. -/
def presentText (s : Option String) : Option String :=
  s.filter fun text => !text.isEmpty

/-- The field of an optional text: nothing, or the text. -/
def optionalTextField : Option String → Except WireError (List UInt8)
  | none => .ok []
  | some s => textField s

namespace Connect

/-- The bits that describe a will. -/
def willFlags : Option Message → UInt8
  | none => 0
  | some will => flagBit will.retain 0x20 ||| (will.qos.level <<< 3) ||| 0x04

/-- The byte that tells which optional fields a CONNECT has. -/
def flags (c : Connect) : UInt8 :=
  flagBit (presentText c.username).isSome 0x80
    ||| flagBit (presentText c.password).isSome 0x40
    ||| willFlags c.will
    ||| flagBit c.cleanSession 0x02

/-- The fields of a will: its topic and its payload. -/
def willFields : Option Message → Except WireError (List UInt8)
  | none => .ok []
  | some will => do
      let topic ← textField will.topic
      let payload ← binaryField will.payload
      return topic ++ payload

/-- The body of a CONNECT. -/
def body (c : Connect) : Except WireError (List UInt8) := do
  let protocolName ← textField c.protocolLevel.protocolName
  let clientId ← textField c.clientId
  let will ← willFields c.will
  let username ← optionalTextField (presentText c.username)
  let password ← optionalTextField (presentText c.password)
  return protocolName ++ [c.protocolLevel.level, c.flags] ++ wordBytes c.keepAlive
    ++ clientId ++ will ++ username ++ password

/-- Reads an optional field that is there if `present` says so. -/
def readOptional {α : Type} (present : Bool) (field : Reader α) : Reader (Option α) :=
  if present then some <$> field else pure none

/-- Reads the fields of a will whose level and retain flag are in `flags`. -/
def readWill (flags : UInt8) : Reader Message := do
  let topic ← Reader.text .connect
  let payload ← Reader.binary .connect
  let qos ← readQoS ((flags >>> 3) &&& 3)
  return {
    topic, payload, qos, retain := flags &&& 0x20 ≠ 0, duplicate := false, packetId := 0 }

/-- Reads the body of a CONNECT. -/
def read : Reader Connect := do
  let protocolName ← Reader.text .connect
  let level ← Reader.byte .connect
  let some protocolLevel := ProtocolLevel.ofLevel? level.toNat | throw (.malformedBody .connect)
  unless protocolName = protocolLevel.protocolName do throw (.malformedBody .connect)
  let flags ← Reader.byte .connect
  let keepAlive ← Reader.word .connect
  let clientId ← Reader.text .connect
  let will ← readOptional (flags &&& 0x04 ≠ 0) (readWill flags)
  let username ← readOptional (flags &&& 0x80 ≠ 0) (Reader.text .connect)
  let password ← readOptional (flags &&& 0x40 ≠ 0) (Reader.text .connect)
  return {
    protocolLevel, cleanSession := flags &&& 0x02 ≠ 0, keepAlive, clientId, will, username,
    password }

end Connect

end Mqtt
