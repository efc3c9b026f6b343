/-!
# `Mqtt.KeepAlive`: when to ping, and when to give up

A client that heard nothing for half the keep-alive interval sends a
PINGREQ, and takes the connection for dead when no PINGRESP comes for
the same time again. A keep-alive of zero turns both off. Times are in
nanoseconds on a clock that may start anywhere.

* `KeepAlive.poll` says what is due at a time.
-/

set_option autoImplicit false

namespace Mqtt

/-- What the keep-alive asks for. -/
inductive PingNeed where
  | nothing
  | ping
  /-- The connection is dead. -/
  | giveUp
  deriving DecidableEq, Repr

/-- When the client last heard from the server and whether a PINGREQ waits
for its answer. -/
structure KeepAlive where
  /-- Half the keep-alive interval; none when keep-alive is off. -/
  timeout : Option Nat
  heardAt : Int
  /-- When the unanswered PINGREQ was sent. -/
  pingedAt : Option Int
  deriving DecidableEq, Repr, Inhabited

namespace KeepAlive

/-- A keep-alive of `interval` nanoseconds that starts at time `now`. -/
def start (interval : Nat) (now : Int) : KeepAlive :=
  ⟨if interval = 0 then none else some (interval / 2), now, none⟩

/-- Starts over, as if a packet had just come in. -/
def restart (k : KeepAlive) (now : Int) : KeepAlive :=
  { k with heardAt := now, pingedAt := none }

/-- A packet came in. -/
def heard (k : KeepAlive) (now : Int) : KeepAlive :=
  { k with heardAt := now }

/-- A PINGREQ was written. -/
def pinged (k : KeepAlive) (now : Int) : KeepAlive :=
  { k with pingedAt := some now }

/-- A PINGRESP came in. -/
def answered (k : KeepAlive) : KeepAlive :=
  { k with pingedAt := none }

/-- Whether a PINGREQ waits for its answer. -/
def isWaiting (k : KeepAlive) : Bool :=
  k.pingedAt.isSome

/-- Whether more than `timeout` lies between two times. -/
def isOver (timeout : Nat) (since now : Int) : Bool :=
  (timeout : Int) < now - since

/-- Whether a PINGREQ is due. -/
def isDue (k : KeepAlive) (now : Int) : Bool :=
  match k.timeout, k.pingedAt with
  | some timeout, none => isOver timeout k.heardAt now
  | _, _ => false

/-- Whether the PINGREQ was left unanswered for too long. -/
def isExpired (k : KeepAlive) (now : Int) : Bool :=
  match k.timeout, k.pingedAt with
  | some timeout, some sent => isOver timeout sent now
  | _, _ => false

/-- What is due at time `now`. -/
def poll (k : KeepAlive) (now : Int) : PingNeed :=
  if k.isDue now then .ping
  else if k.isExpired now then .giveUp
  else .nothing

end KeepAlive

end Mqtt
