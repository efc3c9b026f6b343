import Mqtt.Client.Loop

/-!
# `Mqtt.Client.Run`: the operations of a client, and runs of them

The operations that an application calls, and `Client.step`, which has
one `Action` for each of them and for each thing that the world does: a
turn of the loop, packets that arrive, writes that fail, time that
passes. A list of actions is a run, and every order of them is possible.

* `Client.run` is the client after a run, with the events of the run.

Calls from several threads are runs as well, because each call is one
action. Three things are no actions and are not told of here: dropping a
client, giving an operation up before it ends, and what a handler asks of
the client that runs it.
-/

set_option autoImplicit false

namespace Mqtt

namespace Client

/-- Takes the core back from a loop that has ended, or finds out that a
handler destroyed it. -/
def collect (c : Client) : Client × Option ClientError :=
  match c.loop with
  | .finished core => ({ c with loop := .idle core }, none)
  | .destroyed => ({ c with loop := .gone }, some .loopDestroyed)
  | _ => (c, none)

/-- Connects and starts the loop, unless the client is connected. `opening`
is how opening the transport ends. -/
def connect (c : Client) (opening : Option ClientError) :
    Client × List Event × Option ClientError :=
  if c.connected then (c, [], none)
  else
    match c.loop with
    | .idle core | .finished core =>
        match core.connect c.now opening with
        | (core, events, none) =>
            ({ c with loop := .running .top core, connected := true }, events, none)
        | (core, events, some failure) => ({ c with loop := .idle core }, events, some failure)
    | .destroyed => ({ c with loop := .gone }, [], some .loopDestroyed)
    -- The flag is up while a loop runs, so it is a client without a core that comes here.
    | .running .. | .gone => (c, [], some .loopGone)

/-- Shuts the loop down. It sees the signal before anything else that it
could wait for, but not before it has finished a turn at the top. -/
def shutDown (c : Client) (graceful : Bool) : Client × List Event :=
  match c.loop with
  | .running .top _ =>
      let (c, first) := c.turn
      match c.loop with
      | .running _ core =>
          let (c, ended) := c.finish core (.shutdown graceful)
          (c, first ++ ended)
      -- The pass failed for good, and the loop ended before it saw the signal.
      | _ => (c, first)
  | .running .parked core => c.finish core (.shutdown graceful)
  | _ => (c, [])

/-- Disconnects and waits for the loop to end. Without a loop there is
nothing to do. -/
def disconnect (c : Client) (graceful : Bool) : Client × List Event × Option ClientError :=
  let (c, events) := c.shutDown graceful
  let (c, failure) := c.collect
  (c, events, failure)

/-- Hands a request to the loop, now or later. It is refused when there is
no core any more. -/
def send (c : Client) (r : Request) : Client × List Event × Bool :=
  match c.loop.core? with
  | none => (c, [], false)
  | some _ =>
      ({ c with loop := c.loop.mapCore fun core => { core with inbox := core.inbox ++ [r] } },
        [.accepted r], true)

/-- Whether a request has a topic that it can be sent with. -/
def isValid : Request → Bool
  | .publish m => Topic.isName m.topic
  | .subscribe topic _ => Topic.isFilter topic
  | .unsubscribe topic => Topic.isFilter topic

/-- Asks something of the client; the answer is whether it was accepted. -/
def request (c : Client) (r : Request) : Client × List Event × Bool :=
  if isValid r then c.send r else (c, [], false)

/-- The session, which can be seen while the client holds the core. -/
def session? (c : Client) : Option Session :=
  match c.loop with
  | .idle core => some core.session
  | _ => none

/-- Registers a handler. -/
def on (c : Client) (kind : NoticeKind) (h : Handler) : Client :=
  { c with handlers := c.handlers.register kind h }

/-- Changes what the network has in store. -/
def mapLink (c : Client) (f : Link → Link) : Client :=
  { c with loop := c.loop.mapCore fun core => { core with link := f core.link } }

end Client

/-- What an application or the world does. -/
inductive Action where
  /-- The application connects; opening the transport ends in `opening`. -/
  | connect (opening : Option ClientError)
  | disconnect (graceful : Bool)
  | request (r : Request)
  | on (kind : NoticeKind) (h : Handler)
  /-- The loop takes a turn. -/
  | turn
  /-- The next reads return these, and what was to be read before is gone. -/
  | expect (incoming : List Arrival)
  /-- More is there to be read. -/
  | arrive (incoming : List Arrival)
  /-- The next writes end in these ways. -/
  | outcomes (outcomes : List (Option ClientError))
  /-- So many nanoseconds pass. -/
  | elapse (time : Nat)

/-- What an application gets for an action. -/
inductive Reply where
  | nothing
  /-- The operation ended, in a failure or not. -/
  | ended (failure : Option ClientError)
  | accepted (accepted : Bool)
  deriving DecidableEq, Repr

namespace Client

/-- Does one action. -/
def step (c : Client) : Action → Client × List Event × Reply
  | .connect opening =>
      let (c, events, failure) := c.connect opening
      (c, events, .ended failure)
  | .disconnect graceful =>
      let (c, events, failure) := c.disconnect graceful
      (c, events, .ended failure)
  | .request r =>
      let (c, events, accepted) := c.request r
      (c, events, .accepted accepted)
  | .on kind h => (c.on kind h, [], .nothing)
  | .turn =>
      let (c, events) := c.turn
      (c, events, .nothing)
  | .expect incoming => (c.mapLink fun l => { l with incoming }, [], .nothing)
  | .arrive incoming =>
      (c.mapLink fun l => { l with incoming := l.incoming ++ incoming }, [], .nothing)
  | .outcomes outcomes => (c.mapLink fun l => { l with outcomes }, [], .nothing)
  | .elapse time => ({ c with now := c.now + time }, [], .nothing)

/-- Does a list of actions; the events are those of all actions, in order. -/
def run (c : Client) : List Action → Client × List Event
  | [] => (c, [])
  | a :: as =>
      let (c, first, _) := c.step a
      let (c, later) := c.run as
      (c, first ++ later)

end Client

end Mqtt
