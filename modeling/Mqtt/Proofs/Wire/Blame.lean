import Mqtt.Wire.Decode

/-!
# `Mqtt.Proofs.Wire.Blame`: a frame that is cut right is not blamed on its length

The length field stands in front of a body and is read before it. So an error
that is found in a frame is about its first byte or its body, and is never
taken for a malformed length field, behind which no frame can be found.

* `Reader.BlamesBody`: a reader that reports no malformed length field. Every
  field of a body is read by one (`Packet.blamesBody_readBody`).
* `Frame.decode_ne_malformedLength`: so is every frame.
-/

set_option autoImplicit false

namespace Mqtt

namespace Reader

variable {α β : Type}

/-- Steps in a row do not report a malformed length field if no step does. -/
theorem bind_ne_malformedLength {e : Except WireError α} {f : α → Except WireError β}
    (h : e ≠ .error .malformedLength) (hf : ∀ a, f a ≠ .error .malformedLength) :
    e >>= f ≠ .error .malformedLength := by
  intro heq
  cases e with
  | error fault => exact h (congrArg Except.error (Except.error.inj heq))
  | ok a => exact hf a heq

/-- Whether a reader never reports a malformed length field. That field
stands in front of the body. -/
def BlamesBody (r : Reader α) : Prop :=
  ∀ bs, r.run bs ≠ .error .malformedLength

/-- Readers in a row blame the body if each of them does. -/
theorem BlamesBody.bind {r : Reader α} {f : α → Reader β} (h : BlamesBody r)
    (hf : ∀ a, BlamesBody (f a)) : BlamesBody (r >>= f) :=
  fun bs => bind_ne_malformedLength (h bs) fun result => hf result.1 result.2

/-- Nothing is read, so nothing is reported. -/
theorem blamesBody_pure (a : α) : BlamesBody (pure a : Reader α) :=
  fun _ heq => by cases heq

/-- A check of what was read reports its own errors. -/
theorem blamesBody_lift {e : Except WireError α} (h : e ≠ .error .malformedLength) :
    BlamesBody (liftM e : Reader α) := by
  intro bs heq
  cases e with
  | error e => exact h (congrArg Except.error (Except.error.inj heq))
  | ok a => cases heq

/-- A missing byte is blamed on the body. -/
theorem blamesBody_byte (kind : PacketKind) : BlamesBody (byte kind) := by
  intro bs
  cases bs <;> exact fun heq => by cases heq

/-- So is a missing byte of a word. -/
theorem blamesBody_word (kind : PacketKind) : BlamesBody (word kind) :=
  (blamesBody_byte kind).bind fun _ => (blamesBody_byte kind).bind fun _ => blamesBody_pure _

/-- So are the missing bytes of a content. -/
theorem blamesBody_bytes (kind : PacketKind) (n : Nat) : BlamesBody (bytes kind n) := by
  intro bs heq
  rw [StateT.run, bytes] at heq
  split at heq <;> cases heq

/-- The checks on texts know of other faults. -/
theorem validateText_ne_malformedLength (s : String) :
    validateText s ≠ .error .malformedLength := by
  unfold validateText
  split
  · simp
  · split <;> simp

/-- A level that does not exist is a fault of its own. -/
theorem readQoS_ne_malformedLength (n : UInt8) : readQoS n ≠ .error .malformedLength := by
  unfold readQoS
  split <;> simp

/-- Texts have three faults, and a malformed length field is none of them. -/
theorem blamesBody_text (kind : PacketKind) : BlamesBody (text kind) := by
  have hbinary : BlamesBody (binary kind) :=
    (blamesBody_word kind).bind fun length => blamesBody_bytes kind length.toNat
  refine hbinary.bind fun bs => ?_
  cases Utf8.decode bs with
  | error fault => exact blamesBody_lift (e := .error (.stringNotUtf8 fault)) (by simp)
  | ok s =>
      exact (blamesBody_lift (validateText_ne_malformedLength s)).bind fun _ => blamesBody_pure s

/-- Reading what is left cannot fail. -/
theorem blamesBody_rest : BlamesBody rest :=
  fun _ heq => by cases heq

end Reader

open Reader

namespace Packet

/-- What is wrong with a body is never reported as a malformed length field. -/
theorem blamesBody_readBody (h : FixedHeader) : BlamesBody (readBody h) := by
  obtain ⟨kind, retain, qos, duplicate⟩ := h
  -- Words, texts, and bytes that are checked are all there is to read.
  have hword : ∀ make : UInt16 → Packet,
      BlamesBody (do return make (← word kind) : Reader Packet) :=
    fun make => (blamesBody_word kind).bind fun _ => blamesBody_pure _
  have hchecked : ∀ {α : Type} (check : UInt8 → Except WireError α) (make : α → Packet),
      (∀ n, check n ≠ .error .malformedLength) →
      BlamesBody (do return make (← check (← byte kind)) : Reader Packet) :=
    fun check make hcheck => (blamesBody_byte kind).bind fun n =>
      (blamesBody_lift (hcheck n)).bind fun _ => blamesBody_pure _
  cases kind with
  | connect => exact blamesBody_lift (e := .error (.unsupportedDecode .connect)) (by simp)
  | connAck =>
      refine (blamesBody_byte _).bind fun flags => hchecked readConnectCode _ fun n => ?_
      unfold readConnectCode
      split <;> simp
  | publish =>
      refine (blamesBody_text _).bind fun topic => ?_
      dsimp only
      split
      · exact (blamesBody_pure 0).bind fun _ => blamesBody_rest.bind fun _ => blamesBody_pure _
      · exact (blamesBody_word _).bind fun _ => blamesBody_rest.bind fun _ => blamesBody_pure _
  | subscribe =>
      refine (blamesBody_word _).bind fun _ => (blamesBody_text _).bind fun topic =>
        hchecked readQoS _ readQoS_ne_malformedLength
  | subAck =>
      refine (blamesBody_word _).bind fun _ => hchecked readGranted _ fun n => ?_
      unfold readGranted
      split
      · simp
      · split <;> simp
  | unsubscribe =>
      exact (blamesBody_word _).bind fun _ => (blamesBody_text _).bind fun _ => blamesBody_pure _
  | pubAck | pubRec | pubRel | pubComp | unsubAck => exact hword _
  | pingReq | pingResp | disconnect => exact blamesBody_pure _

end Packet

/-- What is wrong with a frame is never reported as a malformed length field. -/
theorem Frame.decode_ne_malformedLength (frame : Frame) :
    frame.decode ≠ .error .malformedLength := by
  refine bind_ne_malformedLength ?_ fun header => bind_ne_malformedLength ?_ fun _ => ?_
  · refine bind_ne_malformedLength ?_ fun kind =>
      bind_ne_malformedLength (readQoS_ne_malformedLength _) fun qos heq => by cases heq
    unfold readKind
    split <;> simp
  · unfold PacketKind.checkFlags
    split
    · simp
    · split <;> simp
  · refine bind_ne_malformedLength (Packet.blamesBody_readBody header frame.body) fun result => ?_
    dsimp only
    split
    · exact fun heq => by cases heq
    · exact fun heq => by cases heq

end Mqtt
