import Mqtt.Client.Error
import Mqtt.Wire.Encode

/-!
# `Mqtt.Client.Link`: the network as a client meets it

A `Link` is the transport of a client together with all that the network
has in store for it: what the next reads return and how the next writes
end. A statement about every link is a statement about every behaviour
of the network.
-/

set_option autoImplicit false

namespace Mqtt

/-- What a read returns: a packet, or the reason why there is none. -/
abbrev Arrival := Except ClientError Packet

/-- A transport and its future. -/
structure Link where
  isOpen : Bool
  /-- What the next reads return. -/
  incoming : List Arrival
  /-- How the next writes end; none for a write that the network lets
  through, as it does after the last of these. -/
  outcomes : List (Option ClientError)
  deriving Inhabited

namespace Link

/-- Why a packet cannot be written on any network. -/
def unwritable (p : Packet) : Option ClientError :=
  match p.encode with
  | .ok _ => none
  | .error e => some (.wire e)

/-- Writes a packet: the failure, if there is one, and the link after it. -/
def write (l : Link) (p : Packet) : Option ClientError × Link :=
  match l.outcomes with
  | [] => (unwritable p, l)
  | none :: outcomes => (unwritable p, { l with outcomes })
  | some failure :: outcomes => (some failure, { l with outcomes })

/-- Reads what is there, and finds that time runs out when there is nothing. -/
def read (l : Link) : Arrival × Link :=
  match l.incoming with
  | [] => (.error .timeout, l)
  | arrival :: incoming => (arrival, { l with incoming })

/-- Opens the transport. -/
def openUp (l : Link) : Link :=
  { l with isOpen := true }

/-- Closes the transport. -/
def close (l : Link) : Link :=
  { l with isOpen := false }

end Link

end Mqtt
