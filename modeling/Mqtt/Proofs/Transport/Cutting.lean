import Mqtt.Proofs.Wire.Blame
import Mqtt.Proofs.Wire.Length
import Mqtt.Transport.FrameReader

/-!
# `Mqtt.Proofs.Transport.Cutting`: how a stream is cut does not matter

A stream comes in pieces, and after each piece all packets are read that are
complete (`FrameReader.drain`). What is read is the same for every way to
cut the stream, because a byte that comes later never changes what the
bytes before it say.

* `Frame.split?_append_of_some`, `FrameReader.reading`: more bytes do not
  change a frame, or the next result.
* `FrameReader.drain_feed`: reading can be interrupted anywhere.
* `FrameReader.drainAll_eq_of_flatten_eq`: two ways to cut the same stream
  give the same results. A malformed length field is reported once more with
  every piece, so only how often it is reported differs.
-/

set_option autoImplicit false

namespace Mqtt

/-! ### Frames -/

namespace Frame

/-- A frame that is complete stays what it is. -/
theorem split?_append_of_some {bs rest : List UInt8} {frame : Frame}
    (h : split? bs = .ok (some (frame, rest))) (more : List UInt8) :
    split? (bs ++ more) = .ok (some (frame, rest ++ more)) := by
  cases bs with
  | nil => cases h
  | cons first bs =>
      rw [split?] at h
      rw [List.cons_append, split?]
      split at h
      · cases h
      · cases h
      · next field hfield =>
          rw [decodeLength_append_of_some hfield]
          dsimp only
          rw [cut?_eq] at h ⊢
          -- The frame was complete, so the bytes that come later are all behind its body.
          by_cases hle : field.value ≤ field.rest.length
          · rw [if_pos hle] at h
            obtain ⟨rfl, rfl⟩ := Prod.mk.inj (Option.some.inj (Except.ok.inj h))
            rw [if_pos (by rw [List.length_append]; omega), List.take_append_of_le_length hle,
              List.drop_append_of_le_length hle]
          · rw [if_neg hle] at h
            cases h

/-- So does a malformed one, and there is no other error. -/
theorem split?_append_of_error {bs : List UInt8} {e : WireError} (h : split? bs = .error e)
    (more : List UInt8) :
    e = .malformedLength ∧ split? (bs ++ more) = .error .malformedLength := by
  cases bs with
  | nil => cases h
  | cons first bs =>
      rw [split?] at h
      rw [List.cons_append, split?]
      split at h
      · next e' hfield =>
          obtain rfl := Except.error.inj h
          obtain ⟨rfl, hmore⟩ := decodeLength_append_of_error hfield more
          rw [hmore]
          exact ⟨rfl, rfl⟩
      · cases h
      · split at h <;> cases h

end Frame

namespace FrameReader

/-! ### The next result -/

/-- A frame that can be read is the next result. -/
theorem next_of_packet {r : FrameReader} {frame : Frame} {rest : List UInt8} {packet : Packet}
    (h : Frame.split? r.buffer = .ok (some (frame, rest))) (hdecode : frame.decode = .ok packet) :
    r.next = (.ok (some packet), { r with buffer := rest }) := by
  rw [next]
  split
  · next h' => cases h.symm.trans h'
  · next h' => cases h.symm.trans h'
  · next h' =>
      obtain ⟨rfl, rfl⟩ := Prod.mk.inj (Option.some.inj (Except.ok.inj (h.symm.trans h')))
      rw [hdecode]

/-- A CONNACK that cannot be read is reported, and its frame is taken off. -/
theorem next_of_connAck {r : FrameReader} {frame : Frame} {rest : List UInt8} {e : WireError}
    (h : Frame.split? r.buffer = .ok (some (frame, rest))) (hdecode : frame.decode = .error e)
    (hconnAck : isConnAck frame = true) : r.next = (.error e, { r with buffer := rest }) := by
  rw [next]
  split
  · next h' => cases h.symm.trans h'
  · next h' => cases h.symm.trans h'
  · next h' =>
      obtain ⟨rfl, rfl⟩ := Prod.mk.inj (Option.some.inj (Except.ok.inj (h.symm.trans h')))
      rw [hdecode]
      exact if_pos hconnAck

/-- Another frame that cannot be read is counted, and the next one is looked at. -/
theorem next_of_garbage {r : FrameReader} {frame : Frame} {rest : List UInt8} {e : WireError}
    (h : Frame.split? r.buffer = .ok (some (frame, rest))) (hdecode : frame.decode = .error e)
    (hconnAck : ¬ isConnAck frame = true) :
    r.next = next ⟨rest, r.discarded + 1⟩ := by
  rw [next]
  split
  · next h' => cases h.symm.trans h'
  · next h' => cases h.symm.trans h'
  · next h' =>
      obtain ⟨rfl, rfl⟩ := Prod.mk.inj (Option.some.inj (Except.ok.inj (h.symm.trans h')))
      rw [hdecode]
      exact if_neg hconnAck

/-- A malformed length field is reported, and nothing is taken off. -/
theorem next_of_error {r : FrameReader} {e : WireError} (h : Frame.split? r.buffer = .error e) :
    r.next = (.error e, r) := by
  rw [next]
  split
  · next h' => rw [Except.error.inj (h.symm.trans h')]
  · next h' => cases h.symm.trans h'
  · next h' => cases h.symm.trans h'

/-- A frame that is not complete is left for later. -/
theorem next_of_none {r : FrameReader} (h : Frame.split? r.buffer = .ok none) :
    r.next = (.ok none, r) := by
  rw [next]
  split
  · next h' => cases h.symm.trans h'
  · rfl
  · next h' => cases h.symm.trans h'

/-- What reading the next packet comes to, and what it comes to when more
bytes follow. -/
inductive Reading (r : FrameReader) : Prop where
  /-- There is nothing to read, and nothing is lost by having tried. -/
  | idle (r' : FrameReader) (hnext : r.next = (.ok none, r')) (hidle : r'.next = (.ok none, r'))
      (hfeed : ∀ bytes, (r.feed bytes).next = (r'.feed bytes).next)
  /-- A packet, or a CONNACK that cannot be read. -/
  | result (result : Except WireError Packet) (r' : FrameReader)
      (hnext : r.next = (result.map some, r')) (hresult : result ≠ .error .malformedLength)
      (hshort : r'.buffer.length < r.buffer.length)
      (hfeed : ∀ bytes, (r.feed bytes).next = (result.map some, r'.feed bytes))
  /-- A length field is malformed, and will be. -/
  | stuck (r' : FrameReader) (hnext : r.next = (.error .malformedLength, r'))
      (hstuck : ∀ bytes, (r'.feed bytes).next = (.error .malformedLength, r'.feed bytes))
      (hfeed : ∀ bytes, (r.feed bytes).next = (.error .malformedLength, r'.feed bytes))

/-- Reading the next packet comes to one of three things. -/
theorem reading (r : FrameReader) : Reading r := by
  -- By the length of the buffer, which a frame that is dropped shortens.
  induction hn : r.buffer.length using Nat.strongRecOn generalizing r with
  | ind n ih =>
      subst hn
      have hmore : ∀ {frame rest}, Frame.split? r.buffer = .ok (some (frame, rest)) →
          ∀ bytes, Frame.split? (r.feed bytes).buffer = .ok (some (frame, rest ++ bytes)) :=
        fun h bytes => Frame.split?_append_of_some h bytes
      cases hsplit : Frame.split? r.buffer with
      | error e =>
          -- More bytes do not mend a length field.
          have hstuck : ∀ bytes, (r.feed bytes).next = (.error .malformedLength, r.feed bytes) :=
            fun bytes => next_of_error (Frame.split?_append_of_error hsplit bytes).2
          obtain ⟨rfl, -⟩ := Frame.split?_append_of_error hsplit []
          exact .stuck r (next_of_error hsplit) hstuck hstuck
      | ok found =>
          cases found with
          | none => exact .idle r (next_of_none hsplit) (next_of_none hsplit) fun _ => rfl
          | some front =>
              obtain ⟨frame, rest⟩ := front
              have hshort := Frame.split?_shortens hsplit
              cases hdecode : frame.decode with
              | ok packet =>
                  refine .result (.ok packet) { r with buffer := rest }
                    (next_of_packet hsplit hdecode) (by simp) hshort fun bytes => ?_
                  exact next_of_packet (hmore hsplit bytes) hdecode
              | error e =>
                  by_cases hconnAck : isConnAck frame = true
                  · refine .result (.error e) { r with buffer := rest }
                      (next_of_connAck hsplit hdecode hconnAck) ?_ hshort fun bytes => ?_
                    · intro heq
                      rw [Except.error.inj heq] at hdecode
                      exact frame.decode_ne_malformedLength hdecode
                    · exact next_of_connAck (hmore hsplit bytes) hdecode hconnAck
                  · -- The frame is dropped, and what follows it decides.
                    have hnext := next_of_garbage hsplit hdecode hconnAck
                    have hfeed : ∀ bytes, (r.feed bytes).next
                        = ((⟨rest, r.discarded + 1⟩ : FrameReader).feed bytes).next :=
                      fun bytes => next_of_garbage (hmore hsplit bytes) hdecode hconnAck
                    cases ih rest.length hshort ⟨rest, r.discarded + 1⟩ rfl with
                    | idle r' h hidle hlater =>
                        exact .idle r' (hnext.trans h) hidle fun bytes =>
                          (hfeed bytes).trans (hlater bytes)
                    | result res r' h hresult hless hlater =>
                        exact .result res r' (hnext.trans h) hresult (Nat.lt_trans hless hshort)
                          fun bytes => (hfeed bytes).trans (hlater bytes)
                    | stuck r' h hstuck hlater =>
                        exact .stuck r' (hnext.trans h) hstuck fun bytes =>
                          (hfeed bytes).trans (hlater bytes)

/-- Any other result uses up bytes. -/
theorem next_shortens {r r' : FrameReader} {result : Except WireError (Option Packet)}
    (h : r.next = (result, r')) (hnone : result ≠ .ok none)
    (hmalformed : result ≠ .error .malformedLength) : r'.buffer.length < r.buffer.length := by
  cases reading r with
  | idle r₁ hnext =>
      obtain ⟨rfl, rfl⟩ := Prod.mk.inj (hnext.symm.trans h)
      exact absurd rfl hnone
  | result res r₁ hnext hresult hshort =>
      obtain ⟨rfl, rfl⟩ := Prod.mk.inj (hnext.symm.trans h)
      exact hshort
  | stuck r₁ hnext =>
      obtain ⟨rfl, rfl⟩ := Prod.mk.inj (hnext.symm.trans h)
      exact absurd rfl hmalformed

/-! ### All results -/

/-- Reads until there is nothing to read, or a length field is malformed.
The results are packets, CONNACKs that cannot be read, and at the end the
malformed length field. -/
def drain (r : FrameReader) : List (Except WireError Packet) × FrameReader :=
  match h : r.next with
  | (.ok none, r') => ([], r')
  | (.ok (some packet), r') =>
      have : r'.buffer.length < r.buffer.length := next_shortens h (by simp) (by simp)
      (.ok packet :: r'.drain.1, r'.drain.2)
  | (.error e, r') =>
      if he : e = .malformedLength then ([.error e], r')
      else
        have : r'.buffer.length < r.buffer.length := next_shortens h (by simp) (by simpa using he)
        (.error e :: r'.drain.1, r'.drain.2)
termination_by r.buffer.length

/-- Reads all that can be read after each piece of a stream. -/
def drainAll (r : FrameReader) : List (List UInt8) → List (Except WireError Packet) × FrameReader
  | [] => ([], r)
  | piece :: pieces =>
      let (results, r) := (r.feed piece).drain
      let (later, r) := r.drainAll pieces
      (results ++ later, r)

/-- Where nothing can be read, nothing is. -/
theorem drain_of_idle {r r' : FrameReader} (h : r.next = (.ok none, r')) : r.drain = ([], r') := by
  rw [drain]
  split
  · next h' =>
      obtain ⟨-, rfl⟩ := Prod.mk.inj (h.symm.trans h')
      rfl
  · next h' => cases (Prod.mk.inj (h.symm.trans h')).1
  · next h' => cases (Prod.mk.inj (h.symm.trans h')).1

/-- A result is followed by what can be read behind it. -/
theorem drain_of_result {r r' : FrameReader} {result : Except WireError Packet}
    (h : r.next = (result.map some, r')) (hresult : result ≠ .error .malformedLength) :
    r.drain = (result :: r'.drain.1, r'.drain.2) := by
  rw [drain]
  -- `drain` matches on `next` under its own name, so both equations are compared in each case.
  cases result with
  | ok packet =>
      split
      · next h' => cases (Prod.mk.inj (h.symm.trans h')).1
      · next h' =>
          obtain ⟨heq, rfl⟩ := Prod.mk.inj (h.symm.trans h')
          obtain rfl := Option.some.inj (Except.ok.inj heq)
          rfl
      · next h' => cases (Prod.mk.inj (h.symm.trans h')).1
  | error e =>
      split
      · next h' => cases (Prod.mk.inj (h.symm.trans h')).1
      · next h' => cases (Prod.mk.inj (h.symm.trans h')).1
      · next h' =>
          obtain ⟨heq, rfl⟩ := Prod.mk.inj (h.symm.trans h')
          obtain rfl := Except.error.inj heq
          exact dif_neg fun he => hresult (congrArg Except.error he)

/-- A malformed length field ends the reading, because it would be found again. -/
theorem drain_of_stuck {r r' : FrameReader} (h : r.next = (.error .malformedLength, r')) :
    r.drain = ([.error .malformedLength], r') := by
  rw [drain]
  split
  · next h' => cases (Prod.mk.inj (h.symm.trans h')).1
  · next h' => cases (Prod.mk.inj (h.symm.trans h')).1
  · next h' =>
      obtain ⟨heq, rfl⟩ := Prod.mk.inj (h.symm.trans h')
      obtain rfl := Except.error.inj heq
      exact dif_pos rfl

/-- What is read depends on the next result only. -/
theorem drain_congr {r r' : FrameReader} (h : r.next = r'.next) : r.drain = r'.drain := by
  cases reading r' with
  | idle r₁ hnext => rw [drain_of_idle hnext, drain_of_idle (h.trans hnext)]
  | result res r₁ hnext hresult =>
      rw [drain_of_result hnext hresult, drain_of_result (h.trans hnext) hresult]
  | stuck r₁ hnext => rw [drain_of_stuck hnext, drain_of_stuck (h.trans hnext)]

/-- The last result, when a length field is malformed. -/
def malformed : Except WireError Packet :=
  .error .malformedLength

/-- Whether a reader finds a malformed length field, now and whatever comes. -/
def Stuck (r : FrameReader) : Prop :=
  ∀ bytes, (r.feed bytes).next = (.error .malformedLength, r.feed bytes)

/-- What reading all that can be read comes to, and what it comes to when
more bytes follow. -/
inductive Drained (r : FrameReader) : Prop where
  /-- Reading goes on when more bytes come. -/
  | idle (results : List (Except WireError Packet)) (r' : FrameReader)
      (hdrain : r.drain = (results, r')) (hresults : malformed ∉ results)
      (hidle : r'.next = (.ok none, r'))
      (hfeed : ∀ bytes, (r.feed bytes).drain
        = (results ++ (r'.feed bytes).drain.1, (r'.feed bytes).drain.2))
  /-- Reading is over. -/
  | stuck (results : List (Except WireError Packet)) (r' : FrameReader)
      (hdrain : r.drain = (results ++ [malformed], r')) (hresults : malformed ∉ results)
      (hstuck : Stuck r')
      (hfeed : ∀ bytes, (r.feed bytes).drain = (results ++ [malformed], r'.feed bytes))

/-- Reading can be interrupted anywhere. -/
theorem drain_feed (r : FrameReader) : Drained r := by
  -- By the length of the buffer, which every result shortens.
  induction hn : r.buffer.length using Nat.strongRecOn generalizing r with
  | ind n ih =>
      subst hn
      cases reading r with
      | idle r' hnext hidle hfeed =>
          exact .idle [] r' (drain_of_idle hnext) (by simp) hidle fun bytes =>
            drain_congr (hfeed bytes)
      | stuck r' hnext hstuck hfeed =>
          exact .stuck [] r' (drain_of_stuck hnext) (by simp) hstuck fun bytes =>
            drain_of_stuck (hfeed bytes)
      | result res r' hnext hresult hshort hfeed =>
          -- It is the first result, whatever the others come to.
          have hne : malformed ≠ res := fun heq => hresult heq.symm
          cases ih r'.buffer.length hshort r' rfl with
          | idle results r₁ hdrain hresults hidle hlater =>
              refine .idle (res :: results) r₁ ?_ ?_ hidle fun bytes => ?_
              · rw [drain_of_result hnext hresult, hdrain]
              · exact List.not_mem_cons_of_ne_of_not_mem hne hresults
              · rw [drain_of_result (hfeed bytes) hresult, hlater]
                rfl
          | stuck results r₁ hdrain hresults hstuck hlater =>
              refine .stuck (res :: results) r₁ ?_ ?_ hstuck fun bytes => ?_
              · rw [drain_of_result hnext hresult, hdrain]
                rfl
              · exact List.not_mem_cons_of_ne_of_not_mem hne hresults
              · rw [drain_of_result (hfeed bytes) hresult, hlater]
                rfl

/-- Feeding nothing changes nothing. -/
theorem feed_nil (r : FrameReader) : r.feed [] = r := by
  rw [feed, List.append_nil]

/-- Feeding two pieces is feeding them joined. -/
theorem feed_feed (r : FrameReader) (bytes more : List UInt8) :
    (r.feed bytes).feed more = r.feed (bytes ++ more) := by
  rw [feed, feed, feed, List.append_assoc]

/-- A reader that is stuck stays so. -/
theorem Stuck.feed {r : FrameReader} (h : Stuck r) (bytes : List UInt8) : Stuck (r.feed bytes) := by
  intro more
  rw [feed_feed]
  exact h (bytes ++ more)

/-- A malformed length field is reported once more with every piece. -/
theorem Stuck.drainAll {r : FrameReader} (h : Stuck r) (pieces : List (List UInt8)) :
    r.drainAll pieces = (List.replicate pieces.length malformed, r.feed pieces.flatten) := by
  induction pieces generalizing r with
  | nil =>
      rw [List.flatten_nil, feed_nil]
      rfl
  | cons piece pieces ih =>
      rw [FrameReader.drainAll, drain_of_stuck (h piece)]
      dsimp only
      rw [ih (h.feed piece), feed_feed]
      rfl

/-- Reading a stream in pieces is reading it at once, except that a malformed
length field may be reported more often. -/
theorem drainAll_cases {r : FrameReader} (hidle : r.next = (.ok none, r))
    (pieces : List (List UInt8)) :
    (∃ results r', malformed ∉ results ∧ (r.feed pieces.flatten).drain = (results, r') ∧
      r.drainAll pieces = (results, r')) ∨
    (∃ results r' k, malformed ∉ results ∧ Stuck r' ∧
      (r.feed pieces.flatten).drain = (results ++ [malformed], r') ∧
      r.drainAll pieces = (results ++ List.replicate (k + 1) malformed, r')) := by
  induction pieces generalizing r with
  | nil =>
      refine Or.inl ⟨[], r, by simp, ?_, rfl⟩
      rw [List.flatten_nil, feed_nil, drain_of_idle hidle]
  | cons piece pieces ih =>
      -- The first piece is read, and then interrupted by the others.
      have hwhole : r.feed (piece :: pieces).flatten = (r.feed piece).feed pieces.flatten := by
        rw [List.flatten_cons, feed_feed]
      rw [hwhole, drainAll]
      cases drain_feed (r.feed piece) with
      | idle results r₁ hdrain hresults hidle₁ hfeed =>
          rw [hdrain, hfeed]
          dsimp only
          rcases ih hidle₁ with ⟨later, r', hlater, hrest, hall⟩ |
            ⟨later, r', k, hlater, hstuck, hrest, hall⟩
          · refine Or.inl ⟨results ++ later, r', ?_, by rw [hrest], by rw [hall]⟩
            exact fun hmem => (List.mem_append.mp hmem).elim hresults hlater
          · refine Or.inr ⟨results ++ later, r', k, ?_, hstuck, ?_, ?_⟩
            · exact fun hmem => (List.mem_append.mp hmem).elim hresults hlater
            · rw [hrest, List.append_assoc]
            · rw [hall, List.append_assoc]
      | stuck results r₁ hdrain hresults hstuck hfeed =>
          rw [hdrain, hfeed]
          refine Or.inr ⟨results, r₁.feed pieces.flatten, pieces.length, hresults,
            hstuck.feed pieces.flatten, rfl, ?_⟩
          dsimp only
          rw [hstuck.drainAll, List.append_assoc, List.replicate_succ]
          rfl

/-- Two ways to cut a stream give the same packets and the same errors, and
leave the same reader. Where a length field is malformed, the error is the
last result, is reported with every piece from then on, and always will be. -/
theorem drainAll_eq_of_flatten_eq {cs ds : List (List UInt8)} (h : cs.flatten = ds.flatten) :
    ∃ results r m n, malformed ∉ results ∧ (m = 0 ↔ n = 0) ∧
      empty.drainAll cs = (results ++ List.replicate m malformed, r) ∧
      empty.drainAll ds = (results ++ List.replicate n malformed, r) ∧
      (0 < m → ∀ bytes, (r.feed bytes).drain = ([malformed], r.feed bytes)) := by
  -- Both ways are compared with reading the whole at once. That comes to one
  -- thing only, so both end well or both end with the malformed length field.
  have hidle : empty.next = (.ok none, empty) := next_of_none rfl
  have hcs := drainAll_cases hidle cs
  have hds := drainAll_cases hidle ds
  rw [← h] at hds
  rcases hcs with ⟨results, r, hresults, hdrain, hall⟩ |
    ⟨results, r, k, hresults, hstuck, hdrain, hall⟩
  · rcases hds with ⟨results', r', hresults', hdrain', hall'⟩ |
      ⟨results', r', k', hresults', hstuck', hdrain', hall'⟩
    · obtain ⟨rfl, rfl⟩ := Prod.mk.inj (hdrain.symm.trans hdrain')
      refine ⟨results, r, 0, 0, hresults, Iff.rfl, ?_, ?_, fun hpos => absurd hpos (by omega)⟩
      · rw [hall, List.replicate_zero, List.append_nil]
      · rw [hall', List.replicate_zero, List.append_nil]
    · obtain ⟨rfl, -⟩ := Prod.mk.inj (hdrain.symm.trans hdrain')
      exact absurd (by simp) hresults
  · rcases hds with ⟨results', r', hresults', hdrain', hall'⟩ |
      ⟨results', r', k', hresults', hstuck', hdrain', hall'⟩
    · obtain ⟨rfl, -⟩ := Prod.mk.inj (hdrain.symm.trans hdrain')
      exact absurd (by simp) hresults'
    · obtain ⟨heq, rfl⟩ := Prod.mk.inj (hdrain.symm.trans hdrain')
      obtain rfl := List.append_cancel_right heq
      refine ⟨results, r, k + 1, k' + 1, hresults, by omega, hall, hall', fun _ bytes => ?_⟩
      exact drain_of_stuck (hstuck bytes)

/-- A SUBACK that is dropped, a CONNACK that is refused, a PINGRESP, and a
malformed length field, at once and in pieces. -/
theorem drainAll_eq_pieces :
    ∃ results m n, malformed ∉ results ∧
      empty.drainAll [[0x90, 3, 0, 1, 9, 0x20, 2, 0, 9, 0xD0, 0, 0x30, 0x80, 0x80, 0x80, 0x80, 1,
          0]]
        = (results ++ List.replicate m malformed, ⟨[0x30, 0x80, 0x80, 0x80, 0x80, 1, 0], 1⟩) ∧
      empty.drainAll [[0x90, 3, 0, 1], [9], [], [0x20, 2], [0, 9, 0xD0, 0, 0x30, 0x80, 0x80],
          [0x80, 0x80], [1], [0]]
        = (results ++ List.replicate n malformed, ⟨[0x30, 0x80, 0x80, 0x80, 0x80, 1, 0], 1⟩) := by
  obtain ⟨results, r, m, n, hresults, -, hwhole, hpieces, -⟩ := drainAll_eq_of_flatten_eq
    (show [[0x90, 3, 0, 1, 9, 0x20, 2, 0, 9, 0xD0, 0, 0x30, 0x80, 0x80, 0x80, 0x80, 1,
        (0 : UInt8)]].flatten
      = [[0x90, 3, 0, 1], [9], [], [0x20, 2], [0, 9, 0xD0, 0, 0x30, 0x80, 0x80],
        [0x80, 0x80], [1], [0]].flatten by decide)
  have hr : r = ⟨[0x30, 0x80, 0x80, 0x80, 0x80, 1, 0], 1⟩ :=
    (congrArg Prod.snd hpieces).symm.trans (by decide +kernel)
  rw [hr] at hwhole hpieces
  exact ⟨results, m, n, hresults, hwhole, hpieces⟩

end FrameReader

end Mqtt
