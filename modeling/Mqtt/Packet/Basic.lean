import Mqtt.Packet.QoS
import Mqtt.Packet.Kind
import Mqtt.Packet.Handshake

/-!
# `Mqtt.Packet.Basic`: control packets

`Packet` has one constructor for each kind of control packet, with the
fields that the kind has on the wire. A SUBSCRIBE and an UNSUBSCRIBE
carry one topic each, which is all that a client asks for at a time.

* `Packet.kind`, `Packet.qos` and `Packet.packetId?` are what the
  fixed header and the bookkeeping of exchanges need of a packet.
-/

set_option autoImplicit false

namespace Mqtt

/-- An application message. -/
structure Message where
  topic : String
  payload : List UInt8
  qos : QoS
  retain : Bool
  /-- Set when the message was written before. -/
  duplicate : Bool
  /-- Zero at level 0, the packet identifier of the exchange otherwise. -/
  packetId : UInt16
  deriving BEq, ReflBEq, LawfulBEq, Repr, Inhabited

instance : DecidableEq Message := instDecidableEqOfLawfulBEq

/-- A new message on a topic. -/
def Message.ofPayload (topic : String) (payload : List UInt8) (qos : QoS) : Message :=
  ⟨topic, payload, qos, false, false, 0⟩

/-- The message with its retain flag replaced. -/
def Message.withRetain (m : Message) (retain : Bool) : Message :=
  { m with retain }

/-- A request to receive what is published under a topic filter. -/
structure Subscription where
  packetId : UInt16
  topic : String
  qos : QoS
  deriving DecidableEq, Repr, Inhabited

/-- A request to receive no more of it. -/
structure Unsubscription where
  packetId : UInt16
  topic : String
  deriving DecidableEq, Repr, Inhabited

/-- What a client says about itself when it connects. -/
structure Connect where
  protocolLevel : ProtocolLevel
  cleanSession : Bool
  /-- In seconds; zero turns keep-alive off. -/
  keepAlive : UInt16
  clientId : String
  /-- The message that the server publishes when the client is lost. -/
  will : Option Message
  username : Option String
  password : Option String
  deriving BEq, ReflBEq, LawfulBEq, Repr, Inhabited

instance : DecidableEq Connect := instDecidableEqOfLawfulBEq

/-- A control packet. -/
inductive Packet where
  | connect (c : Connect)
  | connAck (sessionPresent : Bool) (code : ConnectCode)
  | publish (m : Message)
  | pubAck (packetId : UInt16)
  | pubRec (packetId : UInt16)
  | pubRel (packetId : UInt16)
  | pubComp (packetId : UInt16)
  | subscribe (request : Subscription)
  /-- `granted` is none when the server refused the subscription. -/
  | subAck (packetId : UInt16) (granted : Option QoS)
  | unsubscribe (request : Unsubscription)
  | unsubAck (packetId : UInt16)
  | pingReq
  | pingResp
  | disconnect
  deriving BEq, ReflBEq, LawfulBEq, Repr, Inhabited

instance : DecidableEq Packet := instDecidableEqOfLawfulBEq

namespace Packet

/-- The kind of a packet. -/
def kind : Packet → PacketKind
  | connect _ => .connect
  | connAck .. => .connAck
  | publish _ => .publish
  | pubAck _ => .pubAck
  | pubRec _ => .pubRec
  | pubRel _ => .pubRel
  | pubComp _ => .pubComp
  | subscribe _ => .subscribe
  | subAck .. => .subAck
  | unsubscribe _ => .unsubscribe
  | unsubAck _ => .unsubAck
  | pingReq => .pingReq
  | pingResp => .pingResp
  | disconnect => .disconnect

/-- The level that the fixed header shows. A PUBLISH has the level of its
message; SUBSCRIBE, UNSUBSCRIBE and PUBREL are sent at level 1, all other
packets at level 0. -/
def qos : Packet → QoS
  | publish m => m.qos
  | subscribe _ | unsubscribe _ | pubRel _ => .atLeastOnce
  | _ => .atMostOnce

/-- The packet identifier, where the packet has one. A PUBLISH at level 0
has none. -/
def packetId? : Packet → Option UInt16
  | publish m => if m.qos = .atMostOnce then none else some m.packetId
  | subscribe r => some r.packetId
  | unsubscribe r => some r.packetId
  | pubAck i | pubRec i | pubRel i | pubComp i | subAck i _ | unsubAck i => some i
  | _ => none

end Packet

end Mqtt
