import Mathlib.Data.List.Induction
import Mqtt.Proofs.Session.Exchange

/-!
# `Mqtt.Proofs.Session.Operations`: what a session is after any row of operations

A session is looked up in three ways: by a whole key, by the kind in the key and a
test on the packet, and by the identifier in the key. They agree in every session
that started empty, whatever was done to it since (`Session.after`).

* `Exchange.take_oldest`: taking with any test cuts out the oldest exchange of the
  kind that the test accepts, or changes nothing.
* `Session.takeTyped_cases`: each of the five typed takes cuts out what is under its
  key, or changes nothing.
* `Session.entries_apply`: an operation removes exchanges of a side, or tracks one at
  the end of it.
* `Session.lawful_after`: so the keys are those of the packets, the order is that of
  tracking, and all ways to look something up agree.
-/

set_option autoImplicit false

namespace Mqtt

/-- Taking with a test cuts out the oldest exchange that it accepts, or finds none and
changes nothing. -/
theorem Exchange.take_oldest (kind : PacketKind) (accept : Packet → Bool) (es : List Exchange) :
    (∃ front e back, es = front ++ e :: back ∧ (e.key.kind = kind ∧ accept e.packet = true) ∧
      (∀ other ∈ front, ¬ (other.key.kind = kind ∧ accept other.packet = true)) ∧
      take kind accept es = (some e.packet, front ++ back)) ∨
    ((∀ e ∈ es, ¬ (e.key.kind = kind ∧ accept e.packet = true)) ∧
      take kind accept es = (none, es)) := by
  induction es with
  | nil => exact Or.inr ⟨by simp, rfl⟩
  | cons e es ih =>
      by_cases haccept : e.key.kind = kind ∧ accept e.packet = true
      · exact Or.inl ⟨[], e, es, rfl, haccept, by simp, by rw [take, if_pos haccept]; rfl⟩
      -- An entry that is passed over stays in front of what the rest yields.
      · have hpass : take kind accept (e :: es)
            = ((take kind accept es).1, e :: (take kind accept es).2) := by
          rw [take, if_neg haccept]
        rcases ih with ⟨front, e', back, rfl, haccept', hfront, htake⟩ | ⟨hnone, htake⟩
        · refine Or.inl ⟨e :: front, e', back, rfl, haccept', ?_, by rw [hpass, htake]; rfl⟩
          intro other hother
          rcases List.mem_cons.mp hother with rfl | hother
          · exact haccept
          · exact hfront other hother
        · refine Or.inr ⟨?_, by rw [hpass, htake]⟩
          intro other hother
          rcases List.mem_cons.mp hother with rfl | hother
          · exact haccept
          · exact hnone other hother

namespace Session

open Exchange

/-! ### Operations -/

/-- The two lists of a session. -/
inductive Side where
  | sent
  | received
  deriving DecidableEq, Repr

/-- What a session holds on a side. -/
def entries (s : Session) : Side → List Exchange
  | .sent => s.sent
  | .received => s.received

/-- The session with one side replaced. -/
def withEntries (s : Session) (side : Side) (es : List Exchange) : Session :=
  match side with
  | .sent => { s with sent := es }
  | .received => { s with received := es }

/-- Whether packets of this sort are tracked on a side. -/
def Side.accepts : Side → Packet → Bool
  | .sent, p => p.awaitsAnswer
  | .received, p => p.opensExchange

/-- Tracks a packet on a side. -/
def track (s : Session) : Side → Packet → Except TrackingError Session
  | .sent, p => s.trackSent p
  | .received, p => s.trackReceived p

/-- Takes the oldest packet of a kind that a test accepts from a side. -/
def take (s : Session) (side : Side) (kind : PacketKind) (accept : Packet → Bool) :
    Option Packet × Session :=
  match side with
  | .sent => s.takeSent kind accept
  | .received => s.takeReceived kind accept

/-- The takes that ask for one sort of packet by its identifier. -/
inductive TypedTake where
  | sentPublish
  | sentSubscribe
  | sentUnsubscribe
  | receivedPublish
  | receivedPubRec
  deriving DecidableEq, Repr

namespace TypedTake

/-- The side that is searched. -/
def side : TypedTake → Side
  | sentPublish | sentSubscribe | sentUnsubscribe => .sent
  | receivedPublish | receivedPubRec => .received

/-- The kind of packet that is asked for. -/
def kind : TypedTake → PacketKind
  | sentPublish | receivedPublish => .publish
  | sentSubscribe => .subscribe
  | sentUnsubscribe => .unsubscribe
  | receivedPubRec => .pubRec

end TypedTake

/-- What a typed take finds, as a packet, and the session it leaves. -/
def takeTyped (s : Session) (packetId : UInt16) : TypedTake → Option Packet × Session
  | .sentPublish => (s.takeSentPublish packetId).map (·.map .publish) id
  | .sentSubscribe => (s.takeSentSubscribe packetId).map (·.map .subscribe) id
  | .sentUnsubscribe => (s.takeSentUnsubscribe packetId).map (·.map .unsubscribe) id
  | .receivedPublish => (s.takeReceivedPublish packetId).map (·.map .publish) id
  | .receivedPubRec =>
      (s.takeReceivedPubRec packetId).map (fun found => if found then some (.pubRec packetId)
        else none) id

/-- What can be done to a session. -/
inductive Operation where
  | track (side : Side) (p : Packet)
  | take (side : Side) (kind : PacketKind) (accept : Packet → Bool)
  | takeTyped (t : TypedTake) (packetId : UInt16)
  | redeliver
  | clear

/-- The session that an operation leaves. Where a packet is not tracked, it is the
session that was there. -/
def apply (s : Session) : Operation → Session
  | .track side p =>
      match s.track side p with
      | .ok tracked => tracked
      | .error _ => s
  | .take side kind accept => (s.take side kind accept).2
  | .takeTyped t packetId => (s.takeTyped packetId t).2
  | .redeliver => s.redeliver.2
  | .clear => empty

/-- A new session after some operations. -/
def after (ops : List Operation) : Session :=
  ops.foldl apply empty

/-- Whether operation number `t` tracked an exchange that has been open ever since. -/
structure OpenSince (ops : List Operation) (side : Side) (t : Nat) (e : Exchange) : Prop where
  tracked : ops[t]? = some (.track side e.packet)
  free : e.key ∉ keys ((after (ops.take t)).entries side)
  present : ∀ k, t < k → k ≤ ops.length → e ∈ (after (ops.take k)).entries side

/-- Whether the exchanges of a side stand in the order in which they were tracked. -/
def InTrackingOrder (ops : List Operation) (side : Side) (es : List Exchange) : Prop :=
  ∃ stamped : List (Nat × Exchange), stamped.map (·.2) = es ∧
    (stamped.map (·.1)).Pairwise (· < ·) ∧ ∀ x ∈ stamped, OpenSince ops side x.1 x.2

/-- What holds of a session after some operations. -/
structure Lawful (ops : List Operation) (s : Session) : Prop where
  /-- A key is the kind and the identifier of its packet. -/
  keyed : ∀ side, ∀ e ∈ s.entries side,
    e.packet.kind = e.key.kind ∧ e.packet.packetId? = some e.key.packetId
  distinct : ∀ side, (keys (s.entries side)).Nodup
  sent_only : ∀ e ∈ s.sent, (∃ m, e.packet = .publish m ∧ m.qos ≠ .atMostOnce) ∨
    (∃ r, e.packet = .subscribe r) ∨ ∃ r, e.packet = .unsubscribe r
  received_only : ∀ e ∈ s.received, (∃ m, e.packet = .publish m ∧ m.qos = .exactlyOnce) ∨
    ∃ i, e.packet = .pubRec i
  ordered : ∀ side, InTrackingOrder ops side (s.entries side)
  /-- A packet that belongs on a side is tracked at its end, unless its key is open;
  a packet that is not tracked changes nothing. -/
  track : ∀ side p,
    (∃ key, side.accepts p = true ∧ ExchangeKey.ofPacket? p = some key ∧
      key ∉ keys (s.entries side) ∧
      s.track side p = .ok (s.withEntries side (s.entries side ++ [⟨key, p⟩]))) ∨
    ((side.accepts p = true → ∀ key, ExchangeKey.ofPacket? p = some key →
        key ∈ keys (s.entries side)) ∧
      (∃ reason, s.track side p = .error reason) ∧ s.apply (.track side p) = s)
  /-- Taking cuts out the oldest packet of the kind that is accepted, and the others
  keep their order; where there is none, nothing changes. -/
  take : ∀ side kind accept,
    (∃ front e back, s.entries side = front ++ e :: back ∧
      e.packet.kind = kind ∧ accept e.packet = true ∧
      (∀ other ∈ front, ¬ (other.packet.kind = kind ∧ accept other.packet = true)) ∧
      s.take side kind accept = (some e.packet, s.withEntries side (front ++ back))) ∨
    ((∀ e ∈ s.entries side, ¬ (e.packet.kind = kind ∧ accept e.packet = true)) ∧
      s.take side kind accept = (none, s))
  /-- A typed take cuts out what is open under its key, or changes nothing. -/
  takeTyped : ∀ t i,
    (∃ front e back, s.entries t.side = front ++ e :: back ∧ e.key = ⟨t.kind, i⟩ ∧
      s.takeTyped i t = (some e.packet, s.withEntries t.side (front ++ back))) ∨
    (⟨t.kind, i⟩ ∉ keys (s.entries t.side) ∧ s.takeTyped i t = (none, s))
  /-- The same typed take finds nothing a second time. -/
  takeTyped_twice : ∀ t i, (s.takeTyped i t).2.takeTyped i t = (none, (s.takeTyped i t).2)
  usesId_iff : ∀ i, s.usesId i = true ↔ (s.takeSentPublish i).1.isSome = true ∨
    (s.takeSentSubscribe i).1.isSome = true ∨ (s.takeSentUnsubscribe i).1.isSome = true
  awaitsRelease_iff : ∀ i, s.awaitsRelease i = true ↔ (s.takeReceivedPublish i).1.isSome = true

/-! ### Well-formed sessions, side by side -/

/-- On either side, packets are kept under their own keys. -/
theorem WellFormed.keyed {s : Session} (h : s.WellFormed) (side : Side) :
    Keyed (s.entries side) := by
  cases side with
  | sent => exact h.sent_keyed
  | received => exact h.received_keyed

/-- On either side, no key is used twice. -/
theorem WellFormed.nodup {s : Session} (h : s.WellFormed) (side : Side) :
    (keys (s.entries side)).Nodup := by
  cases side with
  | sent => exact h.sent_nodup
  | received => exact h.received_nodup

/-- What was put on a side is found there. -/
theorem entries_withEntries (s : Session) (side : Side) (es : List Exchange) :
    (s.withEntries side es).entries side = es := by
  cases side <;> rfl

/-- Nothing changes when a side gets what it has. -/
theorem withEntries_entries (s : Session) (side : Side) :
    s.withEntries side (s.entries side) = s := by
  cases side <;> rfl

/-- The other side is not touched. -/
theorem entries_withEntries_of_ne (s : Session) {side other : Side} (h : other ≠ side)
    (es : List Exchange) : (s.withEntries side es).entries other = s.entries other := by
  cases side <;> cases other <;> first | rfl | exact absurd rfl h

/-- Tracking puts a packet at the end under a key that was free. It fails only if the
side does not keep such packets or if the key is taken. -/
theorem track_cases (s : Session) (side : Side) (p : Packet) :
    (∃ key, side.accepts p = true ∧ ExchangeKey.ofPacket? p = some key ∧
      key ∉ keys (s.entries side) ∧
      s.track side p = .ok (s.withEntries side (s.entries side ++ [⟨key, p⟩]))) ∨
    ((side.accepts p = true → ∀ key, ExchangeKey.ofPacket? p = some key →
        key ∈ keys (s.entries side)) ∧
      ∃ reason, s.track side p = .error reason) := by
  cases side with
  | sent =>
      rcases s.trackSent_cases p with ⟨haccepts, key, hkey, hfree, hok⟩ | hfails
      · exact Or.inl ⟨key, haccepts, hkey, hfree, hok⟩
      · exact Or.inr hfails
  | received =>
      rcases s.trackReceived_cases p with ⟨haccepts, key, hkey, hfree, hok⟩ | hfails
      · exact Or.inl ⟨key, haccepts, hkey, hfree, hok⟩
      · exact Or.inr hfails

/-- Tracking keeps a session well-formed, on either side. -/
theorem wellFormed_track {s tracked : Session} {side : Side} {p : Packet} (h : s.WellFormed)
    (htrack : s.track side p = .ok tracked) : tracked.WellFormed := by
  cases side with
  | sent => exact wellFormed_trackSent h htrack
  | received => exact wellFormed_trackReceived h htrack

/-- Taking looks at the kind of the packet just as well as at that of its key. -/
theorem take_cases {s : Session} (h : s.WellFormed) (side : Side) (kind : PacketKind)
    (accept : Packet → Bool) :
    (∃ front e back, s.entries side = front ++ e :: back ∧
      e.packet.kind = kind ∧ accept e.packet = true ∧
      (∀ other ∈ front, ¬ (other.packet.kind = kind ∧ accept other.packet = true)) ∧
      s.take side kind accept = (some e.packet, s.withEntries side (front ++ back))) ∨
    ((∀ e ∈ s.entries side, ¬ (e.packet.kind = kind ∧ accept e.packet = true)) ∧
      s.take side kind accept = (none, s)) := by
  -- `take` looks the kind up in the key and the statement in the packet; well-formed means that
  -- both agree.
  have hkind : ∀ e ∈ s.entries side, e.packet.kind = e.key.kind := fun e he =>
    (ExchangeKey.ofPacket?_eq_some_iff.mp (h.keyed side e he)).1
  have htake : s.take side kind accept = ((Exchange.take kind accept (s.entries side)).1,
      s.withEntries side (Exchange.take kind accept (s.entries side)).2) := by
    cases side <;> rfl
  rcases take_oldest kind accept (s.entries side) with
    ⟨front, e, back, hentries, haccept, hfront, hfound⟩ | ⟨hnone, hfound⟩
  · refine Or.inl ⟨front, e, back, hentries, ?_, haccept.2, ?_, by rw [htake, hfound]⟩
    · rw [hkind e (mem_cut hentries)]
      exact haccept.1
    · intro other hother
      rw [hkind other (hentries ▸ List.mem_append_left _ hother)]
      exact hfront other hother
  · refine Or.inr ⟨?_, by rw [htake, hfound, withEntries_entries]⟩
    intro e he
    rw [hkind e he]
    exact hnone e he

/-- A typed take cuts out the exchange under its key, or changes nothing. -/
theorem takeTyped_cases {s : Session} (h : s.WellFormed) (t : TypedTake) (i : UInt16) :
    (∃ front e back, s.entries t.side = front ++ e :: back ∧ e.key = ⟨t.kind, i⟩ ∧
      s.takeTyped i t = (some e.packet, s.withEntries t.side (front ++ back))) ∨
    (⟨t.kind, i⟩ ∉ keys (s.entries t.side) ∧ s.takeTyped i t = (none, s)) := by
  cases t with
  | sentPublish =>
      rcases takeSentPublish_cases h i with ⟨front, m, back, hsent, htake⟩ | ⟨hnone, htake⟩
      · exact Or.inl ⟨front, _, back, hsent, rfl, by rw [takeTyped, htake]; rfl⟩
      · exact Or.inr ⟨hnone, by rw [takeTyped, htake]; rfl⟩
  | sentSubscribe =>
      rcases takeSentSubscribe_cases h i with ⟨front, r, back, hsent, htake⟩ | ⟨hnone, htake⟩
      · exact Or.inl ⟨front, _, back, hsent, rfl, by rw [takeTyped, htake]; rfl⟩
      · exact Or.inr ⟨hnone, by rw [takeTyped, htake]; rfl⟩
  | sentUnsubscribe =>
      rcases takeSentUnsubscribe_cases h i with ⟨front, r, back, hsent, htake⟩ | ⟨hnone, htake⟩
      · exact Or.inl ⟨front, _, back, hsent, rfl, by rw [takeTyped, htake]; rfl⟩
      · exact Or.inr ⟨hnone, by rw [takeTyped, htake]; rfl⟩
  | receivedPublish =>
      rcases takeReceivedPublish_cases h i with ⟨front, m, back, hreceived, htake⟩ | ⟨hnone, htake⟩
      · exact Or.inl ⟨front, _, back, hreceived, rfl, by rw [takeTyped, htake]; rfl⟩
      · exact Or.inr ⟨hnone, by rw [takeTyped, htake]; rfl⟩
  | receivedPubRec =>
      rcases takeReceivedPubRec_cases h i with
        ⟨front, e, back, hreceived, hkey, htake⟩ | ⟨hnone, htake⟩
      · refine Or.inl ⟨front, e, back, hreceived, hkey, ?_⟩
        -- The packet under such a key is the PUBREC with its identifier.
        have hpacket : e.packet = .pubRec i := by
          obtain ⟨hkind, hid⟩ := ExchangeKey.ofPacket?_eq_some_iff.mp
            (h.received_keyed e (mem_cut hreceived))
          rw [hkey] at hkind hid
          cases hp : e.packet with
          | pubRec j =>
              rw [hp] at hid
              rw [Option.some.inj hid]
          | _ =>
              rw [hp] at hkind
              cases hkind
        rw [takeTyped, htake, hpacket]
        rfl
      · exact Or.inr ⟨hnone, by rw [takeTyped, htake]; rfl⟩

/-! ### One operation -/

/-- Applied to a session, tracking that succeeds gives what it tracked. -/
theorem apply_track_of_ok {s tracked : Session} {side : Side} {p : Packet}
    (h : s.track side p = .ok tracked) : s.apply (.track side p) = tracked := by
  simp only [apply, h]

/-- A packet that is not tracked changes nothing. -/
theorem apply_track_of_error {s : Session} {side : Side} {p : Packet} {reason : TrackingError}
    (h : s.track side p = .error reason) : s.apply (.track side p) = s := by
  simp only [apply, h]

/-- Where a side keeps some of what it held, both sides do. -/
theorem sublist_withEntries {s : Session} (side : Side) {es : List Exchange}
    (h : es.Sublist (s.entries side)) (other : Side) :
    ((s.withEntries side es).entries other).Sublist (s.entries other) := by
  by_cases hother : other = side
  · rw [hother, entries_withEntries]
    exact h
  · exact entries_withEntries_of_ne s hother es ▸ List.Sublist.refl _

/-- An operation leaves a side with some of what it held, in its order, or tracks a
packet at the end under a key that was free. -/
theorem entries_apply {s : Session} (h : s.WellFormed) (op : Operation) (side : Side) :
    ((s.apply op).entries side).Sublist (s.entries side) ∨
    ∃ key p, op = .track side p ∧ key ∉ keys (s.entries side) ∧
      (s.apply op).entries side = s.entries side ++ [⟨key, p⟩] := by
  -- Everything but tracking leaves less on one side, and the other side alone.
  cases op with
  | track other p =>
      rcases s.track_cases other p with ⟨key, -, -, hfree, hok⟩ | ⟨-, reason, herror⟩
      · rw [apply_track_of_ok hok]
        by_cases hside : side = other
        · subst hside
          exact Or.inr ⟨key, p, rfl, hfree, entries_withEntries s side _⟩
        · exact Or.inl (entries_withEntries_of_ne s hside _ ▸ List.Sublist.refl _)
      · rw [apply_track_of_error herror]
        exact Or.inl (List.Sublist.refl _)
  | take other kind accept =>
      refine Or.inl ?_
      show ((s.take other kind accept).2.entries side).Sublist _
      rcases take_cases h other kind accept with ⟨front, e, back, hcut, -, -, -, htake⟩ | ⟨-, htake⟩
      · rw [htake]
        exact sublist_withEntries _ (sublist_cut hcut) side
      · exact htake ▸ List.Sublist.refl _
  | takeTyped t i =>
      refine Or.inl ?_
      show ((s.takeTyped i t).2.entries side).Sublist _
      rcases takeTyped_cases h t i with ⟨front, e, back, hcut, -, htake⟩ | ⟨-, htake⟩
      · rw [htake]
        exact sublist_withEntries _ (sublist_cut hcut) side
      · exact htake ▸ List.Sublist.refl _
  | redeliver => exact Or.inl (sublist_withEntries .sent List.filter_sublist side)
  | clear =>
      refine Or.inl ?_
      cases side <;> exact List.nil_sublist _

/-- Every operation keeps a session well-formed. -/
theorem wellFormed_apply {s : Session} (h : s.WellFormed) (op : Operation) :
    (s.apply op).WellFormed := by
  -- Only tracking does not take away.
  have hless : (∀ side, ((s.apply op).entries side).Sublist (s.entries side)) →
      (s.apply op).WellFormed :=
    fun hsub => wellFormed_of_sublist h (hsub .sent) (hsub .received)
  cases op with
  | track side p =>
      cases htrack : s.track side p with
      | ok tracked =>
          rw [apply_track_of_ok htrack]
          exact wellFormed_track h htrack
      | error reason =>
          rw [apply_track_of_error htrack]
          exact h
  | _ =>
      refine hless fun side => (entries_apply h _ side).resolve_right ?_
      rintro ⟨key, p, hop, -⟩
      cases hop

/-! ### Rows of operations -/

/-- The last operation comes on top of the others. -/
theorem after_snoc (ops : List Operation) (op : Operation) :
    after (ops ++ [op]) = (after ops).apply op := by
  rw [after, List.foldl_append]
  rfl

/-- Whatever is done to the empty session, it stays well-formed. -/
theorem wellFormed_after (ops : List Operation) : (after ops).WellFormed := by
  induction ops using List.reverseRecOn with
  | nil => exact wellFormed_empty
  | append_singleton ops op ih =>
      rw [after_snoc]
      exact wellFormed_apply ih op

/-- An exchange that is open still has been open since it was tracked. -/
theorem OpenSince.snoc {ops : List Operation} {op : Operation} {side : Side} {t : Nat}
    {e : Exchange} (h : OpenSince ops side t e) (he : e ∈ ((after ops).apply op).entries side) :
    OpenSince (ops ++ [op]) side t e := by
  have hlt : t < ops.length := (List.getElem?_eq_some_iff.mp h.tracked).1
  refine ⟨?_, ?_, ?_⟩
  · rw [List.getElem?_append_left hlt]
    exact h.tracked
  · rw [List.take_append_of_le_length (Nat.le_of_lt hlt)]
    exact h.free
  · intro k htk hk
    rw [List.length_append, List.length_singleton] at hk
    rcases Nat.lt_or_ge ops.length k with hlast | hbefore
    · obtain rfl : k = ops.length + 1 := by omega
      rw [List.take_of_length_le (by simp), after_snoc]
      exact he
    · rw [List.take_append_of_le_length hbefore]
      exact h.present k htk hbefore

/-- What the last operation tracked has been open since. -/
theorem openSince_last {ops : List Operation} {side : Side} {e : Exchange}
    (hfree : e.key ∉ keys ((after ops).entries side))
    (he : e ∈ ((after ops).apply (.track side e.packet)).entries side) :
    OpenSince (ops ++ [.track side e.packet]) side ops.length e where
  tracked := by rw [List.getElem?_append_right (Nat.le_refl _), Nat.sub_self]; rfl
  free := by rw [List.take_left]; exact hfree
  present := by
    intro k hlt hk
    rw [List.length_append, List.length_singleton] at hk
    obtain rfl : k = ops.length + 1 := by omega
    rw [List.take_of_length_le (by simp), after_snoc]
    exact he

/-- Every operation keeps that order, because new exchanges go to the end. -/
theorem ordered_after (ops : List Operation) (side : Side) :
    InTrackingOrder ops side ((after ops).entries side) := by
  -- The last operation takes some stamps away, or adds the latest one.
  induction ops using List.reverseRecOn with
  | nil => exact ⟨[], by cases side <;> rfl, List.Pairwise.nil, by simp⟩
  | append_singleton ops op ih =>
      obtain ⟨stamped, hentries, hincreasing, hopen⟩ := ih
      rcases entries_apply (wellFormed_after ops) op side with
        hsub | ⟨key, p, rfl, hfree, hadded⟩
      · rw [← hentries] at hsub
        obtain ⟨kept, hkept, hmap⟩ := List.sublist_map_iff.mp hsub
        refine ⟨kept, by rw [after_snoc, hmap], hincreasing.sublist (hkept.map _), ?_⟩
        intro x hx
        refine (hopen x (hkept.subset hx)).snoc ?_
        rw [hmap]
        exact List.mem_map_of_mem hx
      · refine ⟨stamped ++ [(ops.length, ⟨key, p⟩)], ?_, ?_, ?_⟩
        · rw [after_snoc, hadded, List.map_append, hentries]
          rfl
        · rw [List.map_append, List.pairwise_append]
          refine ⟨hincreasing, by simp, ?_⟩
          intro t ht t' ht'
          obtain ⟨x, hx, rfl⟩ := List.mem_map.mp ht
          obtain rfl := List.mem_singleton.mp ht'
          exact (List.getElem?_eq_some_iff.mp (hopen x hx).tracked).1
        · intro x hx
          rcases List.mem_append.mp hx with hx | hx
          · refine (hopen x hx).snoc ?_
            rw [hadded, ← hentries]
            exact List.mem_append_left _ (List.mem_map_of_mem hx)
          · obtain rfl := List.mem_singleton.mp hx
            refine openSince_last (e := ⟨key, p⟩) hfree ?_
            rw [hadded]
            exact List.mem_append_right _ (List.mem_singleton.mpr rfl)

/-! ### Ways to look something up -/

/-- A typed take finds something exactly if its key is open. -/
theorem takeTyped_isSome_iff {s : Session} (h : s.WellFormed) (t : TypedTake) (i : UInt16) :
    (s.takeTyped i t).1.isSome = true ↔ ⟨t.kind, i⟩ ∈ keys (s.entries t.side) := by
  rcases takeTyped_cases h t i with ⟨front, e, back, hcut, hkey, htake⟩ | ⟨hnone, htake⟩
  · rw [htake]
    exact ⟨fun _ => List.mem_map.mpr ⟨e, mem_cut hcut, hkey⟩, fun _ => rfl⟩
  · rw [htake]
    exact ⟨fun hsome => Bool.noConfusion hsome, fun hmem => absurd hmem hnone⟩

/-- What was taken is not there to be taken again. -/
theorem takeTyped_twice {s : Session} (h : s.WellFormed) (t : TypedTake) (i : UInt16) :
    (s.takeTyped i t).2.takeTyped i t = (none, (s.takeTyped i t).2) := by
  rcases takeTyped_cases h t i with ⟨front, e, back, hcut, hkey, htake⟩ | ⟨-, htake⟩
  · have hrest : (s.withEntries t.side (front ++ back)).WellFormed :=
      wellFormed_of_sublist h (sublist_withEntries _ (sublist_cut hcut) .sent)
        (sublist_withEntries _ (sublist_cut hcut) .received)
    have hgone : ⟨t.kind, i⟩ ∉ keys ((s.withEntries t.side (front ++ back)).entries t.side) := by
      rw [entries_withEntries, ← hkey]
      exact key_not_mem_cut (h.nodup t.side) hcut
    rw [htake]
    rcases takeTyped_cases hrest t i with ⟨front', e', back', hcut', hkey', -⟩ | ⟨-, htake'⟩
    · exact absurd (List.mem_map.mpr ⟨e', mem_cut hcut', hkey'⟩) hgone
    · exact htake'
  · rw [htake]
    exact htake

/-- A sent packet that has to be answered is of one of three kinds. -/
theorem kind_of_awaitsAnswer {p : Packet} (h : p.awaitsAnswer = true) :
    (∃ m, p = .publish m ∧ m.qos ≠ .atMostOnce) ∨ (∃ r, p = .subscribe r) ∨
      ∃ r, p = .unsubscribe r := by
  cases p with
  | publish m => exact Or.inl ⟨m, rfl, of_decide_eq_true h⟩
  | subscribe r => exact Or.inr (Or.inl ⟨r, rfl⟩)
  | unsubscribe r => exact Or.inr (Or.inr ⟨r, rfl⟩)
  | _ => cases h

/-- What a client tracks of the packets it receives is a message at level 2 or a PUBREC. -/
theorem kind_of_opensExchange {p : Packet} (h : p.opensExchange = true) :
    (∃ m, p = .publish m ∧ m.qos = .exactlyOnce) ∨ ∃ i, p = .pubRec i := by
  cases p with
  | publish m => exact Or.inl ⟨m, rfl, of_decide_eq_true h⟩
  | pubRec i => exact Or.inr ⟨i, rfl⟩
  | _ => cases h

/-- An identifier is in use exactly if it is that of a key which one of three takes
looks for. -/
theorem usesId_iff {s : Session} (h : s.WellFormed) (i : UInt16) :
    s.usesId i = true ↔ ⟨.publish, i⟩ ∈ keys s.sent ∨ ⟨.subscribe, i⟩ ∈ keys s.sent ∨
      ⟨.unsubscribe, i⟩ ∈ keys s.sent := by
  constructor
  · intro huses
    obtain ⟨e, he, hid⟩ := List.any_eq_true.mp huses
    have hid : e.key.packetId = i := of_decide_eq_true hid
    have hkind := (ExchangeKey.ofPacket?_eq_some_iff.mp (h.sent_keyed e he)).1
    have hmem : ⟨e.packet.kind, i⟩ ∈ keys s.sent :=
      List.mem_map.mpr ⟨e, he, by rw [hkind, ← hid]⟩
    rcases kind_of_awaitsAnswer (h.sent_awaits e he) with ⟨m, hp, -⟩ | ⟨r, hp⟩ | ⟨r, hp⟩
    · exact Or.inl (by rw [hp] at hmem; exact hmem)
    · exact Or.inr (Or.inl (by rw [hp] at hmem; exact hmem))
    · exact Or.inr (Or.inr (by rw [hp] at hmem; exact hmem))
  · have hany : ∀ kind, ⟨kind, i⟩ ∈ keys s.sent → s.usesId i = true := by
      intro kind hmem
      obtain ⟨e, he, hkey⟩ := List.mem_map.mp hmem
      exact List.any_eq_true.mpr ⟨e, he, by simp [hkey]⟩
    rintro (hmem | hmem | hmem) <;> exact hany _ hmem

/-- What holds of a well-formed session but for its order, which depends on how it came
to be. -/
theorem lawful_of_wellFormed {ops : List Operation} {s : Session} (h : s.WellFormed)
    (hordered : ∀ side, InTrackingOrder ops side (s.entries side)) : Lawful ops s where
  keyed side e he := ExchangeKey.ofPacket?_eq_some_iff.mp (h.keyed side e he)
  distinct := h.nodup
  sent_only e he := kind_of_awaitsAnswer (h.sent_awaits e he)
  received_only e he := kind_of_opensExchange (h.received_opens e he)
  ordered := hordered
  track side p := by
    refine (s.track_cases side p).imp_right fun ⟨hopen, reason, herror⟩ => ?_
    exact ⟨hopen, ⟨reason, herror⟩, apply_track_of_error herror⟩
  take := take_cases h
  takeTyped := takeTyped_cases h
  takeTyped_twice := takeTyped_twice h
  usesId_iff i := by
    -- An identifier is in use if one of the three kinds of request is found under it.
    have hpublish := takeTyped_isSome_iff h .sentPublish i
    have hsubscribe := takeTyped_isSome_iff h .sentSubscribe i
    have hunsubscribe := takeTyped_isSome_iff h .sentUnsubscribe i
    simp only [takeTyped, Prod.map_fst, Option.isSome_map] at hpublish hsubscribe hunsubscribe
    rw [hpublish, hsubscribe, hunsubscribe]
    exact usesId_iff h i
  awaitsRelease_iff i := by
    have hpublish := takeTyped_isSome_iff h .receivedPublish i
    simp only [takeTyped, Prod.map_fst, Option.isSome_map] at hpublish
    rw [hpublish]
    exact isOpen_iff

/-- Whatever is done to a new session, its keys are those of its packets, it holds only
what belongs there, in the order of tracking, and the ways to look something up agree. -/
theorem lawful_after (ops : List Operation) : Lawful ops (after ops) :=
  lawful_of_wellFormed (wellFormed_after ops) (ordered_after ops)

end Session

end Mqtt
