import Mqtt.Packet.Basic

/-!
# `Mqtt.Session.Basic`: exchanges that wait for an answer

An exchange at level 1 or 2 takes several packets. A `Session` remembers
the requests that were sent and not yet answered, and the level 2
exchanges that are not finished on the receiving side. Both lists are in
the order in which their exchanges were tracked.

* `Session.trackSent` and `Session.trackReceived` add an exchange at the
  end and refuse a second one under the same key.
* `Session.takeSent` and `Session.takeReceived` remove the oldest
  exchange of a kind that a test accepts.
* `Session.redeliver` takes out what has to be written again on a
  new connection.
-/

set_option autoImplicit false

namespace Mqtt

/-- What tells two exchanges apart: the kind of the tracked packet and its
identifier. -/
structure ExchangeKey where
  kind : PacketKind
  packetId : UInt16
  deriving DecidableEq, Repr, Inhabited

/-- The key of a packet that has an identifier. -/
def ExchangeKey.ofPacket? (p : Packet) : Option ExchangeKey :=
  p.packetId?.map fun i => ⟨p.kind, i⟩

/-- A tracked packet under its key. -/
structure Exchange where
  key : ExchangeKey
  packet : Packet
  deriving DecidableEq, Repr, Inhabited

/-- Why a packet was not tracked. -/
inductive TrackingError where
  /-- Packets of this kind need no answer on this side. -/
  | untracked (kind : PacketKind)
  /-- An exchange under the same key is still open. -/
  | duplicateId (kind : PacketKind) (packetId : UInt16)
  deriving DecidableEq, Repr

/-- The sentence that describes an error. -/
def TrackingError.message : TrackingError → String
  | untracked kind => "A " ++ kind.name ++ " packet cannot be tracked by the session."
  | duplicateId kind packetId =>
      "A " ++ kind.name ++ " packet with message id " ++ toString packetId
        ++ " is already in flight."

namespace Exchange

/-- Whether an exchange is open under a key. -/
def isOpen (es : List Exchange) (key : ExchangeKey) : Bool :=
  es.any fun e => e.key = key

/-- Puts an exchange at the end, in place of one under the same key. -/
def insert (es : List Exchange) (e : Exchange) : List Exchange :=
  es.filter (fun other => other.key ≠ e.key) ++ [e]

/-- Tracks a packet at the end. -/
def track (es : List Exchange) (p : Packet) : Except TrackingError (List Exchange) :=
  match ExchangeKey.ofPacket? p with
  | none => .error (.untracked p.kind)
  | some key =>
      if isOpen es key then .error (.duplicateId key.kind key.packetId)
      else .ok (es ++ [⟨key, p⟩])

/-- Removes the oldest exchange of a kind whose packet is accepted. -/
def take (kind : PacketKind) (accept : Packet → Bool) :
    List Exchange → Option Packet × List Exchange
  | [] => (none, [])
  | e :: es =>
      if e.key.kind = kind ∧ accept e.packet then (some e.packet, es)
      else
        let (found, rest) := take kind accept es
        (found, e :: rest)

end Exchange

namespace Packet

/-- Accepts the packets with an identifier. -/
def hasId (packetId : UInt16) (p : Packet) : Bool :=
  p.packetId? = some packetId

/-- Whether the server has to answer a packet that was sent. -/
def awaitsAnswer : Packet → Bool
  | publish m => m.qos ≠ .atMostOnce
  | subscribe _ | unsubscribe _ => true
  | _ => false

/-- Whether a received packet leaves an exchange open on this side. -/
def opensExchange : Packet → Bool
  | publish m => m.qos = .exactlyOnce
  | pubRec _ => true
  | _ => false

end Packet

/-- The open exchanges of a connection. -/
structure Session where
  /-- Requests of this client that the server has not answered. -/
  sent : List Exchange
  /-- Received PUBLISH packets that wait for their PUBREL, and PUBREC
  packets whose exchange waits for its PUBCOMP. -/
  received : List Exchange
  deriving DecidableEq, Repr, Inhabited

namespace Session

/-- No exchange is open. -/
def empty : Session := ⟨[], []⟩

/-- The session that the given exchanges leave when they are put in one by
one. Nothing is checked. -/
def ofExchanges (sent received : List Exchange) : Session :=
  ⟨sent.foldl Exchange.insert [], received.foldl Exchange.insert []⟩

/-- Whether no exchange is open. -/
def isEmpty (s : Session) : Bool :=
  s.sent.isEmpty && s.received.isEmpty

/-- Tracks a packet that was written and has to be answered. -/
def trackSent (s : Session) (p : Packet) : Except TrackingError Session := do
  unless p.awaitsAnswer do throw (.untracked p.kind)
  return { s with sent := ← Exchange.track s.sent p }

/-- Tracks a level 2 packet whose exchange this client has to finish. -/
def trackReceived (s : Session) (p : Packet) : Except TrackingError Session := do
  unless p.opensExchange do throw (.untracked p.kind)
  return { s with received := ← Exchange.track s.received p }

/-- Removes the oldest sent packet of a kind that is accepted. -/
def takeSent (s : Session) (kind : PacketKind) (accept : Packet → Bool) :
    Option Packet × Session :=
  let (found, sent) := Exchange.take kind accept s.sent
  (found, { s with sent })

/-- Removes the oldest received packet of a kind that is accepted. -/
def takeReceived (s : Session) (kind : PacketKind) (accept : Packet → Bool) :
    Option Packet × Session :=
  let (found, received) := Exchange.take kind accept s.received
  (found, { s with received })

/-- Removes the sent PUBLISH with an identifier. -/
def takeSentPublish (s : Session) (packetId : UInt16) : Option Message × Session :=
  match s.takeSent .publish (Packet.hasId packetId) with
  | (some (.publish m), s) => (some m, s)
  | (_, s) => (none, s)

/-- Removes the sent SUBSCRIBE with an identifier. -/
def takeSentSubscribe (s : Session) (packetId : UInt16) : Option Subscription × Session :=
  match s.takeSent .subscribe (Packet.hasId packetId) with
  | (some (.subscribe r), s) => (some r, s)
  | (_, s) => (none, s)

/-- Removes the sent UNSUBSCRIBE with an identifier. -/
def takeSentUnsubscribe (s : Session) (packetId : UInt16) : Option Unsubscription × Session :=
  match s.takeSent .unsubscribe (Packet.hasId packetId) with
  | (some (.unsubscribe r), s) => (some r, s)
  | (_, s) => (none, s)

/-- Removes the received PUBLISH with an identifier. -/
def takeReceivedPublish (s : Session) (packetId : UInt16) : Option Message × Session :=
  match s.takeReceived .publish (Packet.hasId packetId) with
  | (some (.publish m), s) => (some m, s)
  | (_, s) => (none, s)

/-- Removes the PUBREC with an identifier, and tells whether there was one. -/
def takeReceivedPubRec (s : Session) (packetId : UInt16) : Bool × Session :=
  let (found, s) := s.takeReceived .pubRec (Packet.hasId packetId)
  (found.isSome, s)

/-- Whether a received PUBLISH with an identifier waits for its PUBREL. -/
def awaitsRelease (s : Session) (packetId : UInt16) : Bool :=
  Exchange.isOpen s.received ⟨.publish, packetId⟩

/-- Whether the server answered a PUBLISH with PUBREC and not yet with PUBCOMP. -/
def isReleased (s : Session) (packetId : UInt16) : Bool :=
  Exchange.isOpen s.received ⟨.pubRec, packetId⟩

/-- Whether a request under an identifier waits for its answer. -/
def usesId (s : Session) (packetId : UInt16) : Bool :=
  s.sent.any fun e => e.key.packetId = packetId

/-- What is written for an exchange on a new connection: PUBREL for a
released PUBLISH, otherwise the request itself, a PUBLISH marked as a
duplicate. -/
def redelivery (s : Session) (e : Exchange) : Packet :=
  match e.packet with
  | .publish m =>
      if s.isReleased e.key.packetId then .pubRel e.key.packetId
      else .publish { m with duplicate := true }
  | p => p

/-- Whether an exchange stays tracked while its redelivery is written. -/
def staysTracked (s : Session) (e : Exchange) : Bool :=
  match e.packet with
  | .publish _ => s.isReleased e.key.packetId
  | _ => false

/-- Takes out the packets to write on a new connection, the oldest first. A
released PUBLISH stays tracked; any other request is tracked again when
it has been written. -/
def redeliver (s : Session) : List Packet × Session :=
  (s.sent.map s.redelivery, { s with sent := s.sent.filter s.staysTracked })

end Session

end Mqtt
