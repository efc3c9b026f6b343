import Mqtt.Proofs.Transport.Cutting
import Mqtt.Proofs.Wire.Canonical

/-!
# `Mqtt.Proofs.Transport.Framing`: a bad frame does not damage its neighbours

A stream is a row of frames (`SentFrame`) with the front of one more frame
behind them (`Frame.Incomplete`). What is read of it is told frame by frame:
each one has its result (`Frame.result?`), whatever stands before or behind it.

* `Frame.split?_eq_none_iff`: a reader waits for more bytes where a frame is
  incomplete, and nowhere else.
* `FrameReader.drain_of_frames`: the results of a stream are those of its
  frames, and the frames that are skipped are counted.
* `FrameReader.next_agrees`: a reader finds what `Packet.decode` finds.
* `FrameReader.frames_read_apart`: both.
-/

set_option autoImplicit false

namespace Mqtt

/-! ### Frames of a stream -/

namespace Frame

variable {field bs : List UInt8} {n : Nat}

/-- A length field announces what its digits tell. -/
theorem announces_iff : Announces field n ↔ IsLengthField field n := by
  rw [Announces, decodeLength_eq_some_iff]
  constructor
  · rintro ⟨field', hfield, -, heq⟩
    rw [heq, List.append_nil]
    exact hfield
  · exact fun hfield => ⟨field, hfield, rfl, (List.append_nil field).symm⟩

/-- Whether some bytes end within their first frame. -/
inductive Incomplete : List UInt8 → Prop where
  | empty : Incomplete []
  | length (first : UInt8) {field : List UInt8} (hfield : IsOpen field) :
      Incomplete (first :: field)
  | body (first : UInt8) {field body : List UInt8} {n : Nat} (hfield : IsLengthField field n)
      (hbody : body.length < n) : Incomplete (first :: (field ++ body))

/-- More bytes are needed exactly where a frame is incomplete. -/
theorem split?_eq_none_iff : split? bs = .ok none ↔ Incomplete bs := by
  constructor
  · intro h
    cases bs with
    | nil => exact .empty
    | cons first bs =>
        rw [split?] at h
        split at h
        · cases h
        · next hopen => exact .length first (decodeLength_eq_none_iff.mp hopen)
        · next f hf =>
            obtain ⟨field, hfield, -, rfl⟩ := decodeLength_eq_some_iff.mp hf
            rw [cut?_eq] at h
            by_cases hle : f.value ≤ f.rest.length
            · rw [if_pos hle] at h
              cases h
            · exact .body first hfield (Nat.lt_of_not_le hle)
  · rintro (_ | ⟨first, hfield⟩ | ⟨first, hfield, hbody⟩)
    · rfl
    · rw [split?, decodeLength_eq_none_iff.mpr hfield]
    · next field body n =>
        have hread : decodeLength (field ++ body) = .ok (some ⟨n, field.length, body⟩) :=
          decodeLength_eq_some_iff.mpr ⟨field, hfield, rfl, rfl⟩
        rw [split?, hread]
        dsimp only
        rw [cut?_eq, if_neg (Nat.not_le.mpr hbody)]

/-- What a reader makes of a frame: its packet, or an error where it is a
CONNACK that cannot be read. Any other frame that cannot be read is skipped. -/
def result? (frame : Frame) : Option (Except WireError Packet) :=
  match frame.decode with
  | .ok packet => some (.ok packet)
  | .error e => if frame.first >>> 4 = PacketKind.connAck.code then some (.error e) else none

/-- A frame that was cut off is never blamed for its length field. -/
theorem result?_ne_malformed (frame : Frame) : frame.result? ≠ some (.error .malformedLength) := by
  intro heq
  unfold result? at heq
  split at heq
  · cases heq
  · next e hdecode =>
      split at heq
      · rw [Except.error.inj (Option.some.inj heq)] at hdecode
        exact frame.decode_ne_malformedLength hdecode
      · cases heq

end Frame

/-- A frame as it stands in a stream, with its length field. -/
structure SentFrame extends Frame where
  field : List UInt8
  isLength : IsLengthField field body.length

namespace SentFrame

/-- The bytes of a frame. -/
def bytes (f : SentFrame) : List UInt8 :=
  f.toFrame.bytes f.field

/-- A frame in front of a stream is cut off, and the rest of the stream is left. -/
theorem split?_bytes (f : SentFrame) (rest : List UInt8) :
    Frame.split? (f.bytes ++ rest) = .ok (some (f.toFrame, rest)) :=
  Frame.split?_bytes (Frame.announces_iff.mpr f.isLength) rest

/-- What is taken off a stream stood in front of it. -/
theorem exists_of_split? {bs rest : List UInt8} {frame : Frame}
    (h : Frame.split? bs = .ok (some (frame, rest))) :
    ∃ f : SentFrame, f.toFrame = frame ∧ bs = f.bytes ++ rest := by
  obtain ⟨field, hbs, hfield⟩ := Frame.exists_bytes_of_split? h
  exact ⟨⟨frame, field, Frame.announces_iff.mp hfield⟩, rfl, hbs⟩

end SentFrame

namespace FrameReader

/-! ### Frame by frame -/

/-- The first frame of a stream adds its result, or is counted. -/
theorem drain_of_frame (f : SentFrame) (rest : List UInt8) (discarded : Nat) :
    drain ⟨f.bytes ++ rest, discarded⟩ =
      match f.result? with
      | some result => (result :: (drain ⟨rest, discarded⟩).1, (drain ⟨rest, discarded⟩).2)
      | none => drain ⟨rest, discarded + 1⟩ := by
  have hsplit := f.split?_bytes rest
  -- Every result but a malformed length field is the first of those that follow.
  have hfirst : ∀ result : Except WireError Packet, result ≠ .error .malformedLength →
      next ⟨f.bytes ++ rest, discarded⟩ = (result.map some, ⟨rest, discarded⟩) →
      drain ⟨f.bytes ++ rest, discarded⟩
        = (result :: (drain ⟨rest, discarded⟩).1, (drain ⟨rest, discarded⟩).2) :=
    fun result hresult hnext => drain_of_result hnext hresult
  unfold Frame.result?
  cases hdecode : f.toFrame.decode with
  | ok packet => exact hfirst (.ok packet) (by simp) (next_of_packet hsplit hdecode)
  | error e =>
      have he : (.error e : Except WireError Packet) ≠ .error .malformedLength := by
        rw [← hdecode]
        exact f.toFrame.decode_ne_malformedLength
      dsimp only
      by_cases hconnAck : f.first >>> 4 = PacketKind.connAck.code
      · rw [if_pos hconnAck]
        exact hfirst (.error e) he (next_of_connAck hsplit hdecode (decide_eq_true hconnAck))
      · rw [if_neg hconnAck]
        exact drain_congr (next_of_garbage (r := ⟨f.bytes ++ rest, discarded⟩) hsplit hdecode
          (hconnAck ∘ of_decide_eq_true))

/-- Whatever the frames of a stream are, what stands behind them is read next. -/
theorem drain_of_frames (frames : List SentFrame) (rest : List UInt8) (discarded : Nat) :
    drain ⟨frames.flatMap SentFrame.bytes ++ rest, discarded⟩ =
      (frames.filterMap (·.result?) ++
        (drain ⟨rest, discarded + frames.countP (·.result?.isNone)⟩).1,
        (drain ⟨rest, discarded + frames.countP (·.result?.isNone)⟩).2) := by
  induction frames generalizing discarded with
  | nil => rfl
  | cons f frames ih =>
      rw [List.flatMap_cons, List.append_assoc, drain_of_frame]
      cases hresult : f.result? with
      | some result =>
          rw [List.filterMap_cons_some (f := fun f : SentFrame => f.result?) hresult,
            List.countP_cons_of_neg (by simp [hresult])]
          dsimp only
          rw [ih]
          rfl
      | none =>
          rw [List.filterMap_cons_none (f := fun f : SentFrame => f.result?) hresult,
            List.countP_cons_of_pos (by simp [hresult])]
          dsimp only
          rw [ih, Nat.add_assoc, Nat.add_comm 1]

/-! ### Agreement with reading one packet -/

/-- How the next result of a reader follows from what `Packet.decode` finds in
its buffer. -/
def Agrees (r : FrameReader) : Except WireError (Option (Packet × List UInt8)) → Prop
  | .ok (some (packet, rest)) => r.next = (.ok (some packet), ⟨rest, r.discarded⟩)
  | .ok none => r.next = (.ok none, r)
  | .error e =>
      if e = .malformedLength then r.next = (.error .malformedLength, r)
      else
        ∃ (f : SentFrame) (rest : List UInt8), r.buffer = f.bytes ++ rest ∧ f.decode = .error e ∧
          r.next = if f.first >>> 4 = PacketKind.connAck.code then (.error e, ⟨rest, r.discarded⟩)
            else next ⟨rest, r.discarded + 1⟩

/-- A reader finds what `Packet.decode` finds. -/
theorem next_agrees (r : FrameReader) : r.Agrees (Packet.decode r.buffer) := by
  unfold Packet.decode
  cases hsplit : Frame.split? r.buffer with
  | error e =>
      obtain ⟨rfl, -⟩ := Frame.split?_append_of_error hsplit []
      dsimp only [Agrees]
      rw [if_pos rfl]
      exact next_of_error hsplit
  | ok found =>
      cases found with
      | none => exact next_of_none hsplit
      | some front =>
          obtain ⟨frame, rest⟩ := front
          dsimp only
          cases hdecode : frame.decode with
          | ok packet => exact next_of_packet hsplit hdecode
          | error e =>
              have he : e ≠ .malformedLength := by
                rintro rfl
                exact frame.decode_ne_malformedLength hdecode
              obtain ⟨f, rfl, hbuffer⟩ := SentFrame.exists_of_split? hsplit
              dsimp only [Agrees]
              rw [if_neg he]
              refine ⟨f, rest, hbuffer, hdecode, ?_⟩
              split
              · next hconnAck => exact next_of_connAck hsplit hdecode (decide_eq_true hconnAck)
              · next hconnAck =>
                  exact next_of_garbage hsplit hdecode (hconnAck ∘ of_decide_eq_true)

/-! ### Both -/

/-- Frames are read apart from each other. A stream of frames, with the front
of one more frame behind them, is read until there is nothing left to read.
Then each frame that can be read has given its packet and each CONNACK that
cannot be read an error, in the order of the frames. The other frames have been
skipped and counted, and the bytes behind all of them are left. Each step of
that finds what `Packet.decode` finds in the same bytes; where that is an error
in a frame, this one frame is used up. -/
theorem frames_read_apart :
    (∀ (frames : List SentFrame) (tail : List UInt8) (discarded : Nat), Frame.Incomplete tail →
      drain ⟨frames.flatMap SentFrame.bytes ++ tail, discarded⟩ =
        (frames.filterMap (·.result?), ⟨tail, discarded + frames.countP (·.result?.isNone)⟩) ∧
      malformed ∉ frames.filterMap (·.result?) ∧
      next ⟨tail, discarded + frames.countP (·.result?.isNone)⟩ =
        (.ok none, ⟨tail, discarded + frames.countP (·.result?.isNone)⟩)) ∧
    (∀ r : FrameReader, r.Agrees (Packet.decode r.buffer)) := by
  refine ⟨fun frames tail discarded htail => ?_, next_agrees⟩
  have hidle : next ⟨tail, discarded + frames.countP (·.result?.isNone)⟩ = _ :=
    next_of_none (Frame.split?_eq_none_iff.mpr htail)
  refine ⟨?_, ?_, hidle⟩
  · rw [drain_of_frames, drain_of_idle hidle, List.append_nil]
  · intro hmem
    obtain ⟨f, -, hresult⟩ := List.mem_filterMap.mp hmem
    exact f.toFrame.result?_ne_malformed hresult

/-- A SUBACK with an unknown verdict, a CONNACK with another, a PINGRESP with a
length field of two bytes, and the front of a PUBLISH. -/
theorem frames_read_apart_stream :
    Frame.Incomplete [0x30, 0x85, 0x00, 0x61] ∧
    drain ⟨[0x90, 3, 0, 1, 9, 0x20, 2, 0, 9, 0xD0, 0x80, 0, 0x30, 0x85, 0x00, 0x61], 0⟩ =
      ([.error (.invalidConnectCode 9), .ok .pingResp], ⟨[0x30, 0x85, 0x00, 0x61], 1⟩) := by
  have hfield : IsLengthField [0x85, 0x00] 5 := ⟨[0x85], 0x00, by decide +kernel⟩
  have hbody : [(0x61 : UInt8)].length < 5 := by decide
  have htail : Frame.Incomplete [0x30, 0x85, 0x00, 0x61] := .body 0x30 hfield hbody
  have hread := (frames_read_apart.1
    [⟨⟨0x90, [0, 1, 9]⟩, [3], [], 3, by decide +kernel⟩,
      ⟨⟨0x20, [0, 9]⟩, [2], [], 2, by decide +kernel⟩,
      ⟨⟨0xD0, []⟩, [0x80, 0], [0x80], 0, by decide +kernel⟩] [0x30, 0x85, 0x00, 0x61] 0 htail).1
  exact ⟨htail, hread.trans (by decide +kernel)⟩

end FrameReader

end Mqtt
