import Mqtt.Session.Basic
import Mqtt.Transport.Kind
import Mqtt.Wire.Error

/-!
# `Mqtt.Client.Error`: what can go wrong for a client

One constructor for each cause, and one sentence for each constructor.

* `ClientError.isTimeout` tells the errors that only mean that time ran
  out. A client loop lives on after them.
-/

set_option autoImplicit false

namespace Mqtt

/-- The kinds of failure that a network connection reports. -/
inductive IoKind where
  | notFound
  | permissionDenied
  | connectionRefused
  | connectionReset
  | hostUnreachable
  | networkUnreachable
  | connectionAborted
  | notConnected
  | addrInUse
  | addrNotAvailable
  | networkDown
  | brokenPipe
  | alreadyExists
  | wouldBlock
  | invalidInput
  | invalidData
  | timedOut
  | writeZero
  | interrupted
  | unsupported
  | unexpectedEof
  | outOfMemory
  | other
  deriving DecidableEq, Repr, Inhabited

namespace IoKind

/-- Every kind. -/
def all : List IoKind :=
  [notFound, permissionDenied, connectionRefused, connectionReset, hostUnreachable,
    networkUnreachable, connectionAborted, notConnected, addrInUse, addrNotAvailable,
    networkDown, brokenPipe, alreadyExists, wouldBlock, invalidInput, invalidData, timedOut,
    writeZero, interrupted, unsupported, unexpectedEof, outOfMemory, other]

/-- The name of a kind. -/
def name : IoKind → String
  | notFound => "NotFound"
  | permissionDenied => "PermissionDenied"
  | connectionRefused => "ConnectionRefused"
  | connectionReset => "ConnectionReset"
  | hostUnreachable => "HostUnreachable"
  | networkUnreachable => "NetworkUnreachable"
  | connectionAborted => "ConnectionAborted"
  | notConnected => "NotConnected"
  | addrInUse => "AddrInUse"
  | addrNotAvailable => "AddrNotAvailable"
  | networkDown => "NetworkDown"
  | brokenPipe => "BrokenPipe"
  | alreadyExists => "AlreadyExists"
  | wouldBlock => "WouldBlock"
  | invalidInput => "InvalidInput"
  | invalidData => "InvalidData"
  | timedOut => "TimedOut"
  | writeZero => "WriteZero"
  | interrupted => "Interrupted"
  | unsupported => "Unsupported"
  | unexpectedEof => "UnexpectedEof"
  | outOfMemory => "OutOfMemory"
  | other => "Other"

/-- The kind with a given name. -/
def ofName? (s : String) : Option IoKind :=
  all.find? fun kind => kind.name = s

end IoKind

/-- A failure of the network connection. -/
structure IoFailure where
  kind : IoKind
  /-- What the connection said about it; none when the operating system
  reported the failure. -/
  detail : Option String
  deriving DecidableEq, Repr, Inhabited

/-- Why something failed that a client was asked to do. -/
inductive ClientError where
  /-- A packet cannot be written or read. -/
  | wire (reason : WireError)
  | io (failure : IoFailure)
  /-- Time ran out, and nothing of the packet was written or read. -/
  | timeout
  | connectionClosed
  /-- Time ran out after part of a packet was written. -/
  | writeStalled (kind : PacketKind)
  | notConnected
  | connectionRefused (code : ConnectCode)
  /-- The server answered CONNECT by something else than CONNACK. -/
  | unexpectedPacket (kind : PacketKind)
  /-- A PINGREQ was left unanswered for too long. -/
  | pingExpired
  | unsupportedTransport (kind : TransportKind)
  /-- The client lost its loop in an earlier failure. -/
  | loopGone
  /-- The client's loop was destroyed by a handler. -/
  | loopDestroyed
  | tracking (reason : TrackingError)
  deriving DecidableEq, Repr

namespace ClientError

/-- Whether an error only means that time ran out. -/
def isTimeout : ClientError → Bool
  | timeout => true
  | io failure => failure.kind = .timedOut
  | _ => false

/-- The sentence that describes an error. What an operating system says of its own
failures is not known here, so the name of their kind stands in for it. The last words
about a destroyed loop, `task panicked`, are a stand-in too. -/
def message : ClientError → String
  | wire reason => "A MQTT Protocol Error occurred: " ++ reason.message
  | io failure => "I/O error occurred: " ++ failure.detail.getD failure.kind.name
  | timeout => "Timed out waiting on the network connection."
  | connectionClosed => "Network connection to server ended unexpectedly."
  | writeStalled kind => "Timed out with part of a " ++ kind.name ++ " packet already written."
  | notConnected => "Client is not connected to a server."
  | connectionRefused code => "Server refused the connection. Status: " ++ code.description
  | unexpectedPacket kind => "Received an unexpected " ++ kind.name ++ " packet."
  | pingExpired => "Server did not answer a PINGREQ in time."
  | unsupportedTransport kind => "The " ++ kind.name ++ " transport is not supported."
  | loopGone => "Client loop is unavailable after an earlier failure."
  | loopDestroyed => "Loop unexpectedly aborted: task panicked"
  | tracking reason => reason.message

end ClientError

/-- Checks that the library has a transport of a kind. -/
def TransportKind.checkBuiltIn (kind : TransportKind) : Except ClientError Unit :=
  if kind.isBuiltIn then .ok () else .error (.unsupportedTransport kind)

end Mqtt
