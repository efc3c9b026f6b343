import Mqtt.Packet.Basic

/-!
# `Mqtt.Packet.Portable`: packets as trees of plain values

An application that stores a session writes packets as trees of plain
values. A packet with fields is an object with one field, whose name is
the kind of packet; a packet without fields is the name alone. Levels,
versions and verdicts are names. An absent option is null.

* `Packet.toPortable` writes a packet.
* `Packet.ofPortable?` reads one back. Fields may be in any order,
  fields that are not known are passed over, and an option may be left
  out.

Messages and requests are records (`Portable.record?`): one may also be
read from the list of all its values, in order. The fields of every other
packet are an object (`Portable.fields?`).
-/

set_option autoImplicit false

namespace Mqtt

/-- A tree of plain values. -/
inductive Portable where
  | null
  | bool (b : Bool)
  | int (n : Int)
  | text (s : String)
  | list (items : List Portable)
  | object (fields : List (String × Portable))
  deriving Inhabited, Repr

namespace Portable

/-- An optional value; null when it is absent. -/
def ofOption {α : Type} (f : α → Portable) : Option α → Portable
  | none => null
  | some a => f a

/-- Reads a truth value. -/
def bool? : Portable → Option Bool
  | bool b => some b
  | _ => none

/-- Reads a word. -/
def word? : Portable → Option UInt16
  | int n => if 0 ≤ n ∧ n < 65536 then some n.toNat.toUInt16 else none
  | _ => none

/-- Reads a byte. -/
def byte? : Portable → Option UInt8
  | int n => if 0 ≤ n ∧ n < 256 then some n.toNat.toUInt8 else none
  | _ => none

/-- Reads a text. -/
def text? : Portable → Option String
  | text s => some s
  | _ => none

/-- Reads bytes. -/
def bytes? : Portable → Option (List UInt8)
  | list items => items.mapM byte?
  | _ => none

/-- Reads an optional value. -/
def option? {α : Type} (f : Portable → Option α) : Portable → Option (Option α)
  | null => some none
  | v => (f v).map some

/-- A field of a record: its name, and whether it may be left out. -/
structure Field where
  name : String
  optional : Bool

/-- A field that must be there. -/
def needed (name : String) : Field := ⟨name, false⟩

/-- A field that is null when it is left out. -/
def optional (name : String) : Field := ⟨name, true⟩

/-- The value of a field of an object. -/
def field? (fields : List (String × Portable)) (f : Field) : Option Portable :=
  match fields.lookup f.name with
  | some v => some v
  | none => if f.optional then some null else none

/-- Reads the values of an object's fields. -/
def fields? (layout : List Field) : Portable → Option (List Portable)
  | object fields => layout.mapM (field? fields)
  | _ => none

/-- Reads the values of a record, none of which may be left out. A record
is an object, or the list of all its values. -/
def record? (names : List String) : Portable → Option (List Portable)
  | list items => if items.length = names.length then some items else none
  | v => v.fields? (names.map needed)

/-- Reads the name of a case, and its content if it has one. -/
def case? : Portable → Option (String × Option Portable)
  | text s => some (s, none)
  | object [(name, content)] => some (name, some content)
  | _ => none

/-- Reads the name of a case without content. -/
def name? (v : Portable) : Option String :=
  match case? v with
  | some (name, none) | some (name, some null) => some name
  | _ => none

end Portable

open Portable

namespace QoS

/-- The name of a level. -/
def name : QoS → String
  | atMostOnce => "QoS0"
  | atLeastOnce => "QoS1"
  | exactlyOnce => "QoS2"

/-- Reads a level. -/
def ofPortable? (v : Portable) : Option QoS :=
  match v.name? with
  | some "QoS0" => some atMostOnce
  | some "QoS1" => some atLeastOnce
  | some "QoS2" => some exactlyOnce
  | _ => none

end QoS

namespace ProtocolLevel

/-- The name of a version. -/
def name : ProtocolLevel → String
  | v31 => "V3_1"
  | v311 => "V3_1_1"

/-- Reads a version. -/
def ofPortable? (v : Portable) : Option ProtocolLevel :=
  match v.name? with
  | some "V3_1" => some v31
  | some "V3_1_1" => some v311
  | _ => none

end ProtocolLevel

namespace ConnectCode

/-- The name of a verdict. -/
def name : ConnectCode → String
  | accepted => "Accepted"
  | badProtocolLevel => "BadProtoVersion"
  | clientIdRejected => "ClientIdRejected"
  | serverUnavailable => "ServerUnavailable"
  | badCredentials => "BadCredentials"
  | notAuthorized => "Unauthorized"

/-- Reads a verdict. -/
def ofPortable? (v : Portable) : Option ConnectCode :=
  match v.name? with
  | some "Accepted" => some accepted
  | some "BadProtoVersion" => some badProtocolLevel
  | some "ClientIdRejected" => some clientIdRejected
  | some "ServerUnavailable" => some serverUnavailable
  | some "BadCredentials" => some badCredentials
  | some "Unauthorized" => some notAuthorized
  | _ => none

end ConnectCode

namespace PacketKind

/-- The name of a kind in a tree. -/
def tag : PacketKind → String
  | connect => "Connect"
  | connAck => "ConnAck"
  | publish => "Publish"
  | pubAck => "PubAck"
  | pubRec => "PubRec"
  | pubRel => "PubRel"
  | pubComp => "PubComp"
  | subscribe => "Subscribe"
  | subAck => "SubAck"
  | unsubscribe => "Unsubscribe"
  | unsubAck => "UnsubAck"
  | pingReq => "PingReq"
  | pingResp => "PingResp"
  | disconnect => "Disconnect"

/-- Every kind. -/
def all : List PacketKind :=
  [connect, connAck, publish, pubAck, pubRec, pubRel, pubComp, subscribe, subAck, unsubscribe,
    unsubAck, pingReq, pingResp, disconnect]

/-- The kind with a given name. -/
def ofTag? (s : String) : Option PacketKind :=
  all.find? fun kind => kind.tag = s

end PacketKind

/-- A word as a value. -/
def Portable.ofWord (n : UInt16) : Portable :=
  int n.toNat

/-- Bytes as a list of values. -/
def Portable.ofBytes (bs : List UInt8) : Portable :=
  list (bs.map fun b => int b.toNat)

namespace Message

/-- A message as an object. -/
def toPortable (m : Message) : Portable :=
  object
    [("topic", text m.topic), ("payload", ofBytes m.payload), ("qos", text m.qos.name),
      ("retain", bool m.retain), ("duplicate", bool m.duplicate),
      ("message_id", ofWord m.packetId)]

/-- Reads a message. -/
def ofPortable? (v : Portable) : Option Message :=
  match v.record? ["topic", "payload", "qos", "retain", "duplicate", "message_id"] with
  | some [topic, payload, qos, retain, duplicate, packetId] => do
      return {
        topic := ← topic.text?
        payload := ← payload.bytes?
        qos := ← QoS.ofPortable? qos
        retain := ← retain.bool?
        duplicate := ← duplicate.bool?
        packetId := ← packetId.word? }
  | _ => none

end Message

namespace Connect

/-- The fields of a CONNECT as an object. -/
def toPortable (c : Connect) : Portable :=
  object
    [("protocol_level", text c.protocolLevel.name), ("clean_session", bool c.cleanSession),
      ("keep_alive", ofWord c.keepAlive), ("client_id", text c.clientId),
      ("will", ofOption Message.toPortable c.will), ("username", ofOption text c.username),
      ("password", ofOption text c.password)]

/-- Reads the fields of a CONNECT. -/
def ofPortable? (v : Portable) : Option Connect :=
  match v.fields? (["protocol_level", "clean_session", "keep_alive", "client_id"].map needed
      ++ ["will", "username", "password"].map optional) with
  | some [protocolLevel, cleanSession, keepAlive, clientId, will, username, password] => do
      return {
        protocolLevel := ← ProtocolLevel.ofPortable? protocolLevel
        cleanSession := ← cleanSession.bool?
        keepAlive := ← keepAlive.word?
        clientId := ← clientId.text?
        will := ← will.option? Message.ofPortable?
        username := ← username.option? text?
        password := ← password.option? text? }
  | _ => none

end Connect

namespace Packet

/-- The only field of an acknowledgment. -/
def packetIdOfPortable? (v : Portable) : Option UInt16 :=
  match v.fields? [needed "message_id"] with
  | some [packetId] => packetId.word?
  | _ => none

/-- The fields of a packet as an object; none for a kind without fields. -/
def content? : Packet → Option Portable
  | connect c => some c.toPortable
  | connAck sessionPresent code =>
      some (object [("session_present", bool sessionPresent), ("return_code", text code.name)])
  | publish m => some m.toPortable
  | pubAck i | pubRec i | pubRel i | pubComp i | unsubAck i =>
      some (object [("message_id", ofWord i)])
  | subscribe r =>
      some (object [("message_id", ofWord r.packetId), ("topic", text r.topic),
        ("qos", text r.qos.name)])
  | subAck i granted =>
      some (object [("message_id", ofWord i),
        ("granted", ofOption (fun qos => text qos.name) granted)])
  | unsubscribe r => some (object [("message_id", ofWord r.packetId), ("topic", text r.topic)])
  | pingReq | pingResp | disconnect => none

/-- A packet as a tree. -/
def toPortable (p : Packet) : Portable :=
  match p.content? with
  | none => text p.kind.tag
  | some content => object [(p.kind.tag, content)]

/-- Reads the fields of a packet of a given kind. -/
def ofContent? (v : Portable) : PacketKind → Option Packet
  | .connect => (Connect.ofPortable? v).map connect
  | .connAck =>
      match v.fields? [needed "session_present", needed "return_code"] with
      | some [sessionPresent, code] => do
          return connAck (← sessionPresent.bool?) (← ConnectCode.ofPortable? code)
      | _ => none
  | .publish => (Message.ofPortable? v).map publish
  | .pubAck => (packetIdOfPortable? v).map pubAck
  | .pubRec => (packetIdOfPortable? v).map pubRec
  | .pubRel => (packetIdOfPortable? v).map pubRel
  | .pubComp => (packetIdOfPortable? v).map pubComp
  | .subscribe =>
      match v.record? ["message_id", "topic", "qos"] with
      | some [packetId, topic, qos] => do
          return subscribe {
            packetId := ← packetId.word?
            topic := ← topic.text?
            qos := ← QoS.ofPortable? qos }
      | _ => none
  | .subAck =>
      match v.fields? [needed "message_id", optional "granted"] with
      | some [packetId, granted] => do
          return subAck (← packetId.word?) (← granted.option? QoS.ofPortable?)
      | _ => none
  | .unsubscribe =>
      match v.record? ["message_id", "topic"] with
      | some [packetId, topic] => do
          return unsubscribe { packetId := ← packetId.word?, topic := ← topic.text? }
      | _ => none
  | .unsubAck => (packetIdOfPortable? v).map unsubAck
  | .pingReq => none
  | .pingResp => none
  | .disconnect => none

/-- The packet of a kind without fields. -/
def ofKind? : PacketKind → Option Packet
  | .pingReq => some pingReq
  | .pingResp => some pingResp
  | .disconnect => some disconnect
  | _ => none

/-- Reads a packet. -/
def ofPortable? (v : Portable) : Option Packet := do
  let (tag, content) ← v.case?
  let kind ← PacketKind.ofTag? tag
  match content with
  | none | some null => ofKind? kind
  | some content => ofContent? content kind

end Packet

end Mqtt
