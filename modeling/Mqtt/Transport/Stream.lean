import Mqtt.Transport.FrameReader

/-!
# `Mqtt.Transport.Stream`: packets over a byte connection

A `StreamTransport` reads and writes whole packets over a connection
that carries bytes. What the network does is told to it: how an attempt
to connect ends, which bytes have arrived before a read and whether the
peer has ended the stream, and whether a write goes through.

* After a read failed on the bytes themselves, the next read finds the
  stream ended.
* A write that stalls after part of a packet was written drops the
  connection, because what follows could not be framed.
-/

set_option autoImplicit false

namespace Mqtt

/-- An open connection. -/
structure StreamLink where
  reader : FrameReader
  /-- A read failed on the bytes of the stream. -/
  failed : Bool
  deriving DecidableEq, Repr, Inhabited

/-- A transport over a byte connection, open or not. -/
structure StreamTransport where
  link : Option StreamLink
  deriving DecidableEq, Repr, Inhabited

/-- What a read finds on the network. -/
structure Arrived where
  /-- The bytes that arrived since the last read. -/
  bytes : List UInt8
  /-- The peer sends nothing more. -/
  ended : Bool
  deriving DecidableEq, Repr, Inhabited

namespace StreamTransport

/-- No connection is open. -/
def closed : StreamTransport := ⟨none⟩

/-- Whether a connection is open. -/
def isConnected (t : StreamTransport) : Bool :=
  t.link.isSome

/-- How many frames were dropped on the open connection. -/
def discarded (t : StreamTransport) : Nat :=
  match t.link with
  | none => 0
  | some link => link.reader.discarded

/-- Opens a connection, or fails as the network does. -/
def connect (t : StreamTransport) :
    (outcome : Except IoFailure Unit) → Except ClientError Unit × StreamTransport
  | .ok () => (.ok (), ⟨some ⟨.empty, false⟩⟩)
  | .error failure => (.error (.io failure), t)

/-- Reads the next packet. All complete frames are returned before the end
of the stream is noticed. -/
def read (t : StreamTransport) (arrived : Arrived) :
    Except ClientError Packet × StreamTransport :=
  match t.link with
  | none => (.error .notConnected, t)
  | some link =>
      if link.failed then (.error .connectionClosed, closed)
      else
        let reader := link.reader.feed arrived.bytes
        if arrived.ended then
          match reader.nextAtEnd with
          | (.ok (some packet), reader) => (.ok packet, ⟨some { link with reader }⟩)
          | (.ok none, _) => (.error .connectionClosed, closed)
          | (.error e, reader) => (.error e, ⟨some ⟨reader, true⟩⟩)
        else
          match reader.next with
          | (.ok (some packet), reader) => (.ok packet, ⟨some { link with reader }⟩)
          | (.ok none, reader) => (.error .timeout, ⟨some { link with reader }⟩)
          | (.error e, reader) => (.error (.wire e), ⟨some ⟨reader, true⟩⟩)

/-- Writes a packet and returns the bytes that the peer gets. `stalls` says
that time ran out with part of the packet written. -/
def write (t : StreamTransport) (packet : Packet) (stalls : Bool) :
    Except ClientError (List UInt8) × StreamTransport :=
  match t.link with
  | none => (.error .notConnected, t)
  | some _ =>
      match packet.encode with
      | .error e => (.error (.wire e), t)
      | .ok bytes => if stalls then (.error (.writeStalled packet.kind), closed) else (.ok bytes, t)

/-- Closes the connection, if one is open. -/
def close (_ : StreamTransport) : StreamTransport :=
  closed

end StreamTransport

end Mqtt
