import Mqtt.Client.Error
import Mqtt.Wire.Decode
import Mqtt.Wire.Encode

/-!
# `Mqtt.Transport.FrameReader`: packets from a byte stream

A `FrameReader` holds the bytes of a stream that were not read yet. A
frame whose body cannot be read is dropped and counted, and reading goes
on behind it. A length field that is malformed is an error, because no
one can tell where the next frame starts. A CONNACK that cannot be read
is an error too, because the connection that it answers cannot be made.
-/

set_option autoImplicit false

namespace Mqtt

/-- The unread bytes of a stream, and how many frames were dropped. -/
structure FrameReader where
  buffer : List UInt8
  discarded : Nat
  deriving DecidableEq, Repr, Inhabited

namespace FrameReader

/-- Nothing was received yet. -/
def empty : FrameReader := ⟨[], 0⟩

/-- Bytes came in. -/
def feed (r : FrameReader) (bytes : List UInt8) : FrameReader :=
  { r with buffer := r.buffer ++ bytes }

/-- Whether a frame is a CONNACK, readable or not. -/
def isConnAck (frame : Frame) : Bool :=
  frame.first >>> 4 = PacketKind.connAck.code

/-- Reads the next packet; none when the buffer holds no complete frame
that can be read. -/
def next (r : FrameReader) : Except WireError (Option Packet) × FrameReader :=
  match h : Frame.split? r.buffer with
  -- The length field stays in the buffer, so the next read ends in the same way.
  | .error e => (.error e, r)
  | .ok none => (.ok none, r)
  | .ok (some (frame, rest)) =>
      match frame.decode with
      | .ok packet => (.ok (some packet), { r with buffer := rest })
      | .error e =>
          if isConnAck frame then (.error e, { r with buffer := rest })
          else
            have : rest.length < r.buffer.length := Frame.split?_shortens h
            next ⟨rest, r.discarded + 1⟩
termination_by r.buffer.length

/-- Reads the next packet of a stream that has ended. Bytes that make no
complete frame are an error. -/
def nextAtEnd (r : FrameReader) : Except ClientError (Option Packet) × FrameReader :=
  match r.next with
  | (.error e, r) => (.error (.wire e), r)
  | (.ok (some packet), r) => (.ok (some packet), r)
  | (.ok none, r) =>
      if r.buffer.isEmpty then (.ok none, r)
      else (.error (.io ⟨.other, some "bytes remaining on stream"⟩), r)

/-- Appends a packet to the buffer, as a peer would write it. -/
def write (r : FrameReader) (packet : Packet) : Option WireError × FrameReader :=
  let (failure, buffer) := packet.writeTo r.buffer
  (failure, { r with buffer })

end FrameReader

end Mqtt
