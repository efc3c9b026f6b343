import Mqtt.Client.Error

/-!
# `Mqtt.Client.Event`: what a client is asked, tells, and does

* `Request`: what an application asks of a client.
* `Notice`: what a client tells an application, through handlers.
* `Event`: what happens in a client, in order. A list of events is the
  log of a run; statements about runs are statements about such lists.
-/

set_option autoImplicit false

namespace Mqtt

/-- What an application asks of a client. -/
inductive Request where
  | publish (m : Message)
  | subscribe (topic : String) (qos : QoS)
  | unsubscribe (topic : String)
  deriving DecidableEq, Repr

/-- What a client tells an application. -/
inductive Notice where
  | messageReceived (m : Message)
  | deliveryCompleted (m : Message)
  /-- `granted` is none when the server refused the subscription. -/
  | subscribeCompleted (request : Subscription) (granted : Option QoS)
  | unsubscribeCompleted (request : Unsubscription)
  | connectionLost (reason : ClientError)
  /-- The client disconnected as it was asked to; `failure` is what kept it
  from doing so gracefully. -/
  | disconnected (failure : Option ClientError)
  deriving DecidableEq, Repr

/-- The kinds of notice. An application registers a handler for each. -/
inductive NoticeKind where
  | messageReceived
  | deliveryCompleted
  | subscribeCompleted
  | unsubscribeCompleted
  | connectionLost
  | disconnected
  deriving DecidableEq, Repr, Inhabited

/-- The kind of a notice. -/
def Notice.kind : Notice → NoticeKind
  | messageReceived _ => .messageReceived
  | deliveryCompleted _ => .deliveryCompleted
  | subscribeCompleted .. => .subscribeCompleted
  | unsubscribeCompleted _ => .unsubscribeCompleted
  | connectionLost _ => .connectionLost
  | disconnected _ => .disconnected

/-- A handler as far as the client can see it. -/
structure Handler where
  tag : String
  /-- Running the handler destroys the loop that runs it. -/
  fails : Bool
  deriving DecidableEq, Repr, Inhabited

/-- The registered handlers, at most one for each kind of notice. -/
abbrev Handlers := NoticeKind → Option Handler

namespace Handlers

/-- No handler is registered. -/
def none : Handlers := fun _ => Option.none

/-- Registers a handler in place of an earlier one. -/
def register (hs : Handlers) (kind : NoticeKind) (h : Handler) : Handlers :=
  fun k => if k = kind then some h else hs k

/-- Whether the loop lives on after a notice. -/
def survive (hs : Handlers) (n : Notice) : Bool :=
  match hs n.kind with
  | some h => !h.fails
  | Option.none => true

end Handlers

/-- What happens in a client. -/
inductive Event where
  /-- A request was accepted from the application. -/
  | accepted (request : Request)
  /-- A request became a packet and was queued. -/
  | queued (packet : Packet)
  /-- The transport was asked to connect. -/
  | opened (host : String) (port : UInt16) (failure : Option ClientError)
  | closed
  /-- A packet was handed to the transport. -/
  | wrote (packet : Packet) (failure : Option ClientError)
  /-- The answer to CONNECT was awaited, for so many milliseconds. -/
  | awaitedAnswer (timeout : Nat)
  /-- The server accepted the connection. A clean connection forgets the
  exchanges of an earlier one, which are `forgotten`. -/
  | established (forgotten : Option Session)
  /-- A packet came in on a connection. -/
  | received (packet : Packet)
  /-- A sent packet could not be tracked. -/
  | untracked (packet : Packet) (reason : TrackingError)
  /-- A notice was given, to the handler that was registered for it. -/
  | notified (notice : Notice) (handler : Option Handler)
  deriving DecidableEq, Repr

/-- How many milliseconds the write of a packet may take. -/
def writeTimeout : Nat := 5000

end Mqtt
