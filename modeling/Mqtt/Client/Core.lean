import Mqtt.Client.Event
import Mqtt.Client.Link
import Mqtt.KeepAlive
import Mqtt.Session.PacketId
import Mqtt.Settings

/-!
# `Mqtt.Client.Core`: the working parts of a client

A `Core` owns the transport, the session and the queue of packets
that wait to be written. Its operations are the things that a client
loop does: it turns requests into packets, writes what is queued, routes
what comes in, keeps the connection alive, and connects.

* `Core.sendAll` writes every packet of a queue once; packets whose
  write timed out are kept, any other failure ends the pass.
* `Core.route` answers a packet, and gives at most one notice.
* `Core.connect` opens a connection and puts the redelivery of the
  session in front of the queue.
-/

set_option autoImplicit false

namespace Mqtt

/-- Whether a packet carries a request of the application. Other packets
answer the server and mean nothing on another connection. -/
def Packet.isRequest : Packet → Bool
  | publish _ | subscribe _ | unsubscribe _ => true
  | _ => false

/-- The working parts of a client. -/
structure Core where
  settings : Settings
  session : Session
  /-- Packets that wait to be written, the next one first. -/
  pending : List Packet
  ids : IdAllocator
  keepAlive : KeepAlive
  /-- Requests that wait to be turned into packets. -/
  inbox : List Request
  link : Link
  deriving Inhabited

namespace Core

/-- A core that was never connected. -/
def new (settings : Settings) (session : Session) (link : Link) (now : Nat) : Core :=
  { settings, session, pending := [], ids := .new
    keepAlive := .start settings.keepAliveInterval now, inbox := [], link }

/-- Puts a packet at the end of the queue. -/
def enqueue (core : Core) (p : Packet) : Core :=
  { core with pending := core.pending ++ [p] }

/-! ### Requests -/

/-- Whether an unanswered or queued request has an identifier. -/
def isIdTaken (core : Core) (packetId : UInt16) : Bool :=
  core.session.usesId packetId
    || core.pending.any fun p => p.isRequest && p.packetId? = some packetId

/-- Hands out an identifier. -/
def nextId (core : Core) : UInt16 × Core :=
  let (packetId, ids) := core.ids.next core.isIdTaken
  (packetId, { core with ids })

/-- The packet of a request. The client alone decides on the identifier and
on the duplicate flag. -/
def packetOf (core : Core) : Request → Packet × Core
  | .publish m =>
      if m.qos = .atMostOnce then
        (.publish { m with duplicate := false, packetId := 0 }, core)
      else
        let (packetId, core) := core.nextId
        (.publish { m with duplicate := false, packetId }, core)
  | .subscribe topic qos =>
      let (packetId, core) := core.nextId
      (.subscribe { packetId, topic, qos }, core)
  | .unsubscribe topic =>
      let (packetId, core) := core.nextId
      (.unsubscribe { packetId, topic }, core)

/-- Turns a request into a packet and queues it. -/
def accept (core : Core) (r : Request) : Core × List Event :=
  let (p, core) := core.packetOf r
  (core.enqueue p, [.queued p])

/-- Turns a list of requests into packets, the first one first. -/
def acceptAll (core : Core) : List Request → Core × List Event
  | [] => (core, [])
  | r :: rs =>
      let (core, first) := core.accept r
      let (core, later) := core.acceptAll rs
      (core, first ++ later)

/-- Turns every waiting request into a packet. -/
def drainInbox (core : Core) : Core × List Event :=
  { core with inbox := [] }.acceptAll core.inbox

/-! ### Writing -/

/-- Hands a packet to the transport. -/
def write (core : Core) (p : Packet) : Option ClientError × Core :=
  let (failure, link) := core.link.write p
  (failure, { core with link })

/-- Tracks a packet that was written. -/
def trackSent (core : Core) (p : Packet) : Core × List Event :=
  match core.session.trackSent p with
  | .ok session => ({ core with session }, [])
  | .error reason => (core, [.untracked p reason])

/-- Tracks a packet that was written, if it has to be answered. -/
def noteWritten (core : Core) (p : Packet) : Core × List Event :=
  if p.awaitsAnswer then core.trackSent p else (core, [])

/-- What came of writing a queue. -/
structure Pass where
  core : Core
  /-- The packets that still have to be written. -/
  kept : List Packet
  events : List Event
  /-- The failure that ended the pass before the end of the queue. -/
  failure : Option ClientError

/-- Puts events in front of those of a pass. -/
def Pass.after (pass : Pass) (events : List Event) : Pass :=
  { pass with events := events ++ pass.events }

/-- Puts a packet in front of those that were kept. -/
def Pass.keep (pass : Pass) (p : Packet) : Pass :=
  { pass with kept := p :: pass.kept }

/-- Writes every packet of a queue once. -/
def sendAll (core : Core) : List Packet → Pass
  | [] => ⟨core, [], [], none⟩
  | p :: rest =>
      match core.write p with
      | (none, core) =>
          let (core, events) := core.noteWritten p
          (core.sendAll rest).after (.wrote p none :: events)
      | (some failure, core) =>
          if failure.isTimeout then
            ((core.sendAll rest).keep p).after [.wrote p (some failure)]
          -- The packet that failed and all behind it stay in their order.
          else ⟨core, p :: rest, [.wrote p (some failure)], some failure⟩

/-- Writes the queue, and keeps in it what could not be written. -/
def flush (core : Core) : Core × List Event × Option ClientError :=
  let pass := core.sendAll core.pending
  ({ pass.core with pending := pass.kept }, pass.events, pass.failure)

/-- Queues every waiting request and writes the queue. -/
def serve (core : Core) : Core × List Event × Option ClientError :=
  let (core, queued) := core.drainInbox
  let (core, written, failure) := core.flush
  (core, queued ++ written, failure)

/-! ### Routing -/

/-- What came of routing a packet. -/
structure Routed where
  core : Core
  events : List Event
  notice : Option Notice

/-- Opens an exchange on the receiving side. One that is open stays as it is. -/
def trackReceived (core : Core) (p : Packet) : Core :=
  match core.session.trackReceived p with
  | .ok session => { core with session }
  | .error _ => core

/-- Routes an incoming message. A level 2 message is not given out before
its PUBREL comes. -/
def routePublish (core : Core) (m : Message) : Routed :=
  match m.qos with
  | .atMostOnce => ⟨core, [], some (.messageReceived m)⟩
  | .atLeastOnce => ⟨core.enqueue (.pubAck m.packetId), [], some (.messageReceived m)⟩
  | .exactlyOnce => ⟨(core.trackReceived (.publish m)).enqueue (.pubRec m.packetId), [], none⟩

/-- Routes a PUBREC: the message is released, and stays tracked until its
PUBCOMP comes. -/
def routePubRec (core : Core) (packetId : UInt16) : Routed :=
  match core.session.takeSentPublish packetId with
  | (none, session) => ⟨{ core with session }, [], none⟩
  | (some m, session) =>
      -- Tracked again at the end, so that PUBRELs go out in the order of the last PUBRECs.
      let (core, events) := { core with session }.trackSent (.publish m)
      ⟨(core.trackReceived (.pubRec packetId)).enqueue (.pubRel packetId), events, none⟩

/-- Routes an incoming packet. Answers that match nothing are ignored, but
a PUBREL is always answered, because the server may have missed an
earlier PUBCOMP. -/
def route (core : Core) : Packet → Routed
  | .pingResp => ⟨{ core with keepAlive := core.keepAlive.answered }, [], none⟩
  | .publish m => core.routePublish m
  | .pubAck packetId =>
      -- The level of the message is not looked at, and the mark of an earlier PUBREC stays.
      let (found, session) := core.session.takeSentPublish packetId
      ⟨{ core with session }, [], found.map .deliveryCompleted⟩
  | .pubRec packetId => core.routePubRec packetId
  | .pubRel packetId =>
      let (found, session) := core.session.takeReceivedPublish packetId
      ⟨{ core with session }.enqueue (.pubComp packetId), [], found.map .messageReceived⟩
  | .pubComp packetId =>
      -- The mark goes, whether a message is found or not.
      let (_, session) := core.session.takeReceivedPubRec packetId
      let (found, session) := session.takeSentPublish packetId
      ⟨{ core with session }, [], found.map .deliveryCompleted⟩
  | .subAck packetId granted =>
      let (found, session) := core.session.takeSentSubscribe packetId
      ⟨{ core with session }, [], found.map fun r => .subscribeCompleted r granted⟩
  | .unsubAck packetId =>
      let (found, session) := core.session.takeSentUnsubscribe packetId
      ⟨{ core with session }, [], found.map .unsubscribeCompleted⟩
  | _ => ⟨core, [], none⟩

/-! ### Keep-alive -/

/-- Does what the keep-alive asks for at time `now`. A PINGREQ whose write
timed out does not count as sent. -/
def tick (core : Core) (now : Nat) : Core × List Event × Option ClientError :=
  match core.keepAlive.poll now with
  | .nothing => (core, [], none)
  | .giveUp => (core, [], some .pingExpired)
  | .ping =>
      match core.write .pingReq with
      | (none, core) =>
          ({ core with keepAlive := core.keepAlive.pinged now }, [.wrote .pingReq none], none)
      | (some failure, core) =>
          (core, [.wrote .pingReq (some failure)], if failure.isTimeout then none else some failure)

/-! ### Connecting -/

/-- Closes the transport. -/
def close (core : Core) : Core :=
  { core with link := core.link.close }

/-- How many milliseconds the server may take to answer CONNECT: the
keep-alive interval, or half a minute when keep-alive is off. -/
def answerTimeout (s : Settings) : Nat :=
  if s.keepAlive = 0 then 30000 else s.keepAlive.toNat * 1000

/-- What is wrong with an answer to CONNECT. -/
def refusal : Arrival → Option ClientError
  | .ok (.connAck _ code) => if code = .accepted then none else some (.connectionRefused code)
  | .ok p => some (.unexpectedPacket p.kind)
  | .error failure => some failure

/-- Writes CONNECT and reads the answer. -/
def handshake (core : Core) : Core × List Event × Option ClientError :=
  let connect := core.settings.toConnect
  match core.write connect with
  | (some failure, core) => (core, [.wrote connect (some failure)], some failure)
  | (none, core) =>
      let (answer, link) := core.link.read
      ({ core with link }, [.wrote connect none, .awaitedAnswer (answerTimeout core.settings)],
        refusal answer)

/-- Makes the core ready for a new connection. Answers to the old one are
dropped. A clean session forgets its exchanges; otherwise what has to be
written again comes first. -/
def resume (core : Core) (now : Nat) : Core × List Event :=
  let requests := core.pending.filter Packet.isRequest
  let keepAlive := core.keepAlive.restart now
  if core.settings.cleanSession then
    ({ core with pending := requests, session := .empty, keepAlive },
      [.established (some core.session)])
  else
    let (redelivery, session) := core.session.redeliver
    ({ core with pending := redelivery ++ requests, session, keepAlive }, [.established none])

/-- Opens the transport, which ends in `opening`, and shakes hands. After a
failure the transport is closed. -/
def connect (core : Core) (now : Nat) (opening : Option ClientError) :
    Core × List Event × Option ClientError :=
  let (core, closing) := if core.link.isOpen then (core.close, [Event.closed]) else (core, [])
  let opened := closing ++ [.opened core.settings.hostname core.settings.port opening]
  match opening with
  | some failure => (core, opened, some failure)
  | none =>
      match { core with link := core.link.openUp }.handshake with
      | (core, events, some failure) => (core.close, opened ++ events ++ [.closed], some failure)
      | (core, events, none) =>
          let (core, resumed) := core.resume now
          (core, opened ++ events ++ resumed, none)

/-! ### Parting -/

/-- Ends a connection in good order: writes all that waits, then DISCONNECT. -/
def part (core : Core) : Core × List Event × Option ClientError :=
  match core.serve with
  | (core, events, some failure) => (core, events, some failure)
  | (core, events, none) =>
      let (failure, core) := core.write .disconnect
      (core, events ++ [.wrote .disconnect failure], failure)

end Core

end Mqtt
