import Mqtt.Client.Core

/-!
# `Mqtt.Client.Loop`: the loop of a client

While a client is connected, its loop owns the core. The loop goes
round in turns of two kinds. At the top it queues every waiting request
and writes the queue. Then it is parked, until one thing happens: a
request is preferred to an incoming packet, and after either the
keep-alive is looked at.

* `Client.turn` is one turn; a parked loop with nothing to do stays.
* `Client.settle` takes turns until there is nothing left to do.
* `Client.finish` is how a loop ends: the transport is closed, and the
  application is told why.
-/

set_option autoImplicit false

namespace Mqtt

/-- Where a running loop stands. -/
inductive Phase where
  /-- About to queue the waiting requests and to write the queue. -/
  | top
  /-- Waiting for a request or an incoming packet. -/
  | parked
  deriving DecidableEq, Repr, Inhabited

/-- The loop of a client. -/
inductive Loop where
  /-- There is none, the client holds the core. -/
  | idle (core : Core)
  | running (phase : Phase) (core : Core)
  /-- The loop has ended, and the client has not taken the core back yet. -/
  | finished (core : Core)
  /-- A handler destroyed the loop and the core with it. -/
  | destroyed
  /-- The client has found out that its loop was destroyed. -/
  | gone
  deriving Inhabited

namespace Loop

/-- The core, wherever it is. -/
def core? : Loop → Option Core
  | idle core | running _ core | finished core => some core
  | destroyed | gone => none

/-- Changes the core in its place. -/
def mapCore (f : Core → Core) : Loop → Loop
  | idle core => idle (f core)
  | running phase core => running phase (f core)
  | finished core => finished (f core)
  | destroyed => destroyed
  | gone => gone

/-- A bound on the turns that a loop can take before it has nothing to do. -/
def work : Loop → Nat
  | running .top core => 2 * (core.inbox.length + core.link.incoming.length) + 1
  | running .parked core => 2 * (core.inbox.length + core.link.incoming.length)
  | _ => 0

end Loop

/-- Why a loop ends. -/
inductive Ending where
  | shutdown (graceful : Bool)
  | lost (reason : ClientError)
  deriving DecidableEq, Repr

/-- A client. -/
structure Client where
  loop : Loop
  /-- Whether the client takes itself for connected. -/
  connected : Bool
  handlers : Handlers
  /-- What the clock shows, in nanoseconds. -/
  now : Nat
  deriving Inhabited

namespace Client

/-- A client that was never connected. It resumes `session`. -/
def new (settings : Settings) (session : Session) (link : Link) : Client :=
  ⟨.idle (.new settings session link 0), false, .none, 0⟩

/-- The event of a notice to the handler that is registered for it. -/
def notification (c : Client) (n : Notice) : Event :=
  .notified n (c.handlers n.kind)

/-- What the core does last, and what the application is told. -/
def conclude (core : Core) : Ending → Core × List Event × Notice
  | .lost reason => (core, [], .connectionLost reason)
  | .shutdown false => (core, [], .disconnected none)
  | .shutdown true =>
      let (core, events, failure) := core.part
      (core, events, .disconnected failure)

/-- Ends the loop. The transport is closed and the client is no longer
connected when the application is told. -/
def finish (c : Client) (core : Core) (ending : Ending) : Client × List Event :=
  let (core, events, notice) := conclude core ending
  let loop := if c.handlers.survive notice then Loop.finished core.close else .destroyed
  ({ c with loop, connected := false }, events ++ [.closed, c.notification notice])

/-- Looks at the keep-alive at the end of a turn.

The clock stands still within a turn, which begins and ends at `c.now`. -/
def endTurn (c : Client) (core : Core) : Client × List Event :=
  match core.tick c.now with
  | (core, events, none) => ({ c with loop := .running .top core }, events)
  | (core, events, some failure) =>
      let (c, ended) := c.finish core (.lost failure)
      (c, events ++ ended)

/-- The turn of a loop that a packet comes to.

The packet is heard at `c.now`, and at the same time the keep-alive is looked
at when the packet was routed (`endTurn`): what a handler does in between takes
no time. A handler that works for so long that the keep-alive runs out while it
does cannot be told of here. -/
def receive (c : Client) (core : Core) (p : Packet) : Client × List Event :=
  let routed := { core with keepAlive := core.keepAlive.heard c.now }.route p
  let events := .received p :: routed.events
  match routed.notice with
  | none =>
      let (c, ended) := c.endTurn routed.core
      (c, events ++ ended)
  | some notice =>
      let events := events ++ [c.notification notice]
      if c.handlers.survive notice then
        let (c, ended) := c.endTurn routed.core
        (c, events ++ ended)
      else ({ c with loop := .destroyed }, events)

/-- The turn of a loop that was parked. -/
def wake (c : Client) (core : Core) : Client × List Event :=
  match core.inbox with
  | r :: inbox =>
      let (core, queued) := { core with inbox }.accept r
      let (c, ended) := c.endTurn core
      (c, queued ++ ended)
  | [] =>
      match core.link.incoming with
      | [] => (c, [])
      | arrival :: incoming =>
          let core := { core with link := { core.link with incoming } }
          match arrival with
          | .ok p => c.receive core p
          | .error failure =>
              if failure.isTimeout then c.endTurn core else c.finish core (.lost failure)

/-- One turn of the loop. -/
def turn (c : Client) : Client × List Event :=
  match c.loop with
  | .running .top core =>
      match core.serve with
      | (core, events, none) => ({ c with loop := .running .parked core }, events)
      | (core, events, some failure) =>
          let (c, ended) := c.finish core (.lost failure)
          (c, events ++ ended)
  | .running .parked core => c.wake core
  | _ => (c, [])

/-- Takes a number of turns. -/
def turns : Nat → Client → Client × List Event
  | 0, c => (c, [])
  | n + 1, c =>
      let (c, first) := c.turn
      let (c, later) := turns n c
      (c, first ++ later)

/-- Takes turns until the loop has nothing left to do. -/
def settle (c : Client) : Client × List Event :=
  turns c.loop.work c

end Client

end Mqtt
