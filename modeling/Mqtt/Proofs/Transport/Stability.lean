import Mqtt.Proofs.Transport.Framing

/-!
# `Mqtt.Proofs.Transport.Stability`: later bytes do not change what was read

A client reads packets off the front of a stream before it has seen the end. So
what `Packet.decode` says of some bytes has to stay true when more bytes follow
them, unless it said that more are needed.

* `Packet.decode_append_of_packet`, `Packet.decode_append_of_error`: a packet or
  an error stays what it is.
* `Packet.decode_eq_none_iff`: more bytes are needed exactly within a frame.
* `Packet.decode_stable`: all of it, for any bytes.
-/

set_option autoImplicit false

namespace Mqtt.Packet

variable {bs rest : List UInt8} {packet : Packet} {e : WireError}

/-- A packet that was read is read again, and what follows is behind it. -/
theorem decode_append_of_packet (h : decode bs = .ok (some (packet, rest))) (more : List UInt8) :
    decode (bs ++ more) = .ok (some (packet, rest ++ more)) := by
  obtain ⟨frame, hsplit, hdecode⟩ := decode_eq_some_iff.mp h
  exact decode_eq_some_iff.mpr ⟨frame, Frame.split?_append_of_some hsplit more, hdecode⟩

/-- An error is reported again. Either the length field was malformed, or the
frame was complete, so what follows is not part of it. -/
theorem decode_append_of_error (h : decode bs = .error e) (more : List UInt8) :
    decode (bs ++ more) = .error e := by
  unfold decode at h ⊢
  cases hsplit : Frame.split? bs with
  | error e' =>
      obtain ⟨rfl, hmore⟩ := Frame.split?_append_of_error hsplit more
      rw [hsplit] at h
      rw [hmore]
      exact h
  | ok found =>
      cases found with
      | none =>
          rw [hsplit] at h
          cases h
      | some front =>
          obtain ⟨frame, behind⟩ := front
          rw [hsplit] at h
          rw [Frame.split?_append_of_some hsplit more]
          dsimp only at h ⊢
          cases hdecode : frame.decode with
          | error e' =>
              rw [hdecode] at h
              exact h
          | ok packet =>
              rw [hdecode] at h
              cases h

/-- More bytes are needed exactly where the first frame is incomplete. -/
theorem decode_eq_none_iff : decode bs = .ok none ↔ Frame.Incomplete bs := by
  rw [← Frame.split?_eq_none_iff]
  unfold decode
  cases Frame.split? bs with
  | error e => simp
  | ok found =>
      cases found with
      | none => simp
      | some front =>
          obtain ⟨frame, behind⟩ := front
          dsimp only
          cases frame.decode <;> simp

/-- What was read off some bytes does not change when more bytes follow: a
packet stays the first packet, with the bytes that follow behind those that were
left, and an error stays the same error. More bytes are asked for exactly where
there are none, where the length field may still go on, or where the body is
shorter than the length field announces. -/
theorem decode_stable (bs : List UInt8) :
    (∀ packet rest, decode bs = .ok (some (packet, rest)) →
      ∀ more, decode (bs ++ more) = .ok (some (packet, rest ++ more))) ∧
    (∀ e, decode bs = .error e → ∀ more, decode (bs ++ more) = .error e) ∧
    (decode bs = .ok none ↔ Frame.Incomplete bs) :=
  ⟨fun _ _ h more => decode_append_of_packet h more, fun _ h more => decode_append_of_error h more,
    decode_eq_none_iff⟩

/-- A PUBACK stays a PUBACK when half of a PINGRESP follows it, and five bytes
of a length field stay malformed. -/
theorem decode_stable_pubAck :
    decode [0x40, 2, 0, 5] = .ok (some (pubAck 5, [])) ∧
    decode ([0x40, 2, 0, 5] ++ [0xD0]) = .ok (some (pubAck 5, [0xD0])) ∧
    decode [0x40, 0x80, 0x80, 0x80, 0x80, 0] = .error .malformedLength ∧
    decode ([0x40, 0x80, 0x80, 0x80, 0x80, 0] ++ [0xD0]) = .error .malformedLength := by
  have hread : decode [0x40, 2, 0, 5] = .ok (some (pubAck 5, [])) := by decide +kernel
  have hmalformed : decode [0x40, 0x80, 0x80, 0x80, 0x80, 0] = .error .malformedLength := by
    decide +kernel
  exact ⟨hread, (decode_stable _).1 (pubAck 5) [] hread [0xD0], hmalformed,
    (decode_stable _).2.1 .malformedLength hmalformed [0xD0]⟩

end Mqtt.Packet
