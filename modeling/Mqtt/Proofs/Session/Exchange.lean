import Mqtt.Session.Basic

/-!
# `Mqtt.Proofs.Session.Exchange`: what a session holds

A session that starts empty is always well-formed (`Session.WellFormed`):
every exchange has the key of its own packet, no key occurs twice, and
each list holds only packets that belong there. The operations on a
well-formed session have one description each:

* `Exchange.take_cases`: taking a packet by kind and identifier cuts out
  the one exchange under that key, or changes nothing.
* `Exchange.track_cases`: tracking puts the packet at the end, under a key
  that is not open.
* `Session.takeSentPublish_cases`, `takeSentSubscribe_cases`,
  `takeSentUnsubscribe_cases`, `takeReceivedPublish_cases`: the same for
  the typed operations of a session.

The `wellFormed_` theorems say that every operation keeps the session
well-formed.
-/

set_option autoImplicit false

namespace Mqtt

/-! ### Cutting a list at one of its elements -/

/-- An element around which a list is cut is in it. -/
theorem mem_cut {α : Type} {xs front back : List α} {a : α} (h : xs = front ++ a :: back) :
    a ∈ xs := by
  rw [h]
  exact List.mem_append_right front List.mem_cons_self

/-- Without it, the others are left in their order. -/
theorem sublist_cut {α : Type} {xs front back : List α} {a : α}
    (h : xs = front ++ a :: back) : (front ++ back).Sublist xs := by
  rw [h]
  exact (List.sublist_cons_self a back).append_left front

/-! ### Keys -/

/-- The key of a packet is its kind and its identifier. -/
theorem ExchangeKey.ofPacket?_eq_some_iff {p : Packet} {key : ExchangeKey} :
    ExchangeKey.ofPacket? p = some key ↔ p.kind = key.kind ∧ p.packetId? = some key.packetId := by
  unfold ExchangeKey.ofPacket?
  cases key with
  | mk kind packetId =>
      cases hid : p.packetId? with
      | none => simp
      | some i => simp [and_comm]

namespace Packet

/-- A packet of kind PUBLISH is a PUBLISH. -/
theorem eq_publish_of_kind {p : Packet} (h : p.kind = .publish) : ∃ m, p = .publish m := by
  cases p <;> first | exact ⟨_, rfl⟩ | cases h

/-- A packet of kind SUBSCRIBE is a SUBSCRIBE. -/
theorem eq_subscribe_of_kind {p : Packet} (h : p.kind = .subscribe) : ∃ r, p = .subscribe r := by
  cases p <;> first | exact ⟨_, rfl⟩ | cases h

/-- A packet of kind UNSUBSCRIBE is an UNSUBSCRIBE. -/
theorem eq_unsubscribe_of_kind {p : Packet} (h : p.kind = .unsubscribe) :
    ∃ r, p = .unsubscribe r := by
  cases p <;> first | exact ⟨_, rfl⟩ | cases h

/-- A packet that has to be answered has an identifier. -/
theorem packetId?_isSome_of_awaitsAnswer {p : Packet} (h : p.awaitsAnswer = true) :
    p.packetId?.isSome = true := by
  cases p with
  | publish m =>
      have hqos : m.qos ≠ .atMostOnce := of_decide_eq_true h
      simp [packetId?, hqos]
  | subscribe r => rfl
  | unsubscribe r => rfl
  | _ => cases h

/-- A PUBLISH that has an identifier has its message's. -/
theorem packetId?_publish {m : Message} {i : UInt16} (h : (publish m).packetId? = some i) :
    m.qos ≠ .atMostOnce ∧ m.packetId = i := by
  by_cases hqos : m.qos = .atMostOnce
  · simp [packetId?, hqos] at h
  · exact ⟨hqos, by simpa [packetId?, hqos] using h⟩

end Packet

namespace Exchange

/-- Every exchange has the key of its packet. -/
def Keyed (es : List Exchange) : Prop :=
  ∀ e ∈ es, ExchangeKey.ofPacket? e.packet = some e.key

/-- The keys of exchanges. -/
def keys (es : List Exchange) : List ExchangeKey :=
  es.map (·.key)

/-- An exchange is open under the keys that occur. -/
theorem isOpen_iff {es : List Exchange} {key : ExchangeKey} :
    isOpen es key = true ↔ key ∈ keys es := by
  simp [isOpen, keys]

/-- Tracking puts a packet at the end, unless its key is open. -/
theorem track_cases (es : List Exchange) (p : Packet) :
    (∃ key, ExchangeKey.ofPacket? p = some key ∧ key ∉ keys es ∧
      track es p = .ok (es ++ [⟨key, p⟩])) ∨
    ((∀ key, ExchangeKey.ofPacket? p = some key → key ∈ keys es) ∧
      ∃ reason, track es p = .error reason) := by
  unfold track
  split
  · next hkey => exact Or.inr ⟨by simp [hkey], _, rfl⟩
  · next key hkey =>
      by_cases hopen : isOpen es key = true
      · -- The packet has no key but this one.
        refine Or.inr ⟨?_, _, if_pos hopen⟩
        intro key' hkey'
        rw [← Option.some.inj (hkey.symm.trans hkey')]
        exact isOpen_iff.mp hopen
      · exact Or.inl ⟨key, hkey, fun hmem => hopen (isOpen_iff.mpr hmem), if_neg hopen⟩

/-- Exchanges stay keyed when one is tracked. -/
theorem keyed_track {es : List Exchange} {key : ExchangeKey} {p : Packet} (h : Keyed es)
    (hkey : ExchangeKey.ofPacket? p = some key) : Keyed (es ++ [⟨key, p⟩]) := by
  intro e he
  rcases List.mem_append.mp he with he | he
  · exact h e he
  · rw [List.mem_singleton.mp he]
    exact hkey

/-- Keys stay distinct when one is added that is not open. -/
theorem nodup_track {es : List Exchange} {e : Exchange} (h : (keys es).Nodup)
    (hfree : e.key ∉ keys es) : (keys (es ++ [e])).Nodup := by
  rw [keys, List.map_append, List.nodup_append]
  refine ⟨h, by simp, ?_⟩
  intro key hkey key' hkey' heq
  rw [List.map_singleton, List.mem_singleton] at hkey'
  exact hfree (hkey' ▸ heq ▸ hkey)

/-- The identifier of a key is that of the packet under it. -/
theorem packetId?_of_mem {es : List Exchange} {e : Exchange} (h : Keyed es) (he : e ∈ es) :
    e.packet.packetId? = some e.key.packetId :=
  (ExchangeKey.ofPacket?_eq_some_iff.mp (h e he)).2

/-- An exchange holds a packet of the kind that its key names. -/
theorem kind_of_cut {es front back : List Exchange} {e : Exchange} {kind : PacketKind}
    {packetId : UInt16} (h : Keyed es) (hes : es = front ++ e :: back)
    (hkey : e.key = ⟨kind, packetId⟩) : e.packet.kind = kind := by
  have hkind := (ExchangeKey.ofPacket?_eq_some_iff.mp (h e (mem_cut hes))).1
  rw [hkind, hkey]

/-- The key of an exchange that was cut out is free. -/
theorem key_not_mem_cut {es front back : List Exchange} {e : Exchange} (h : (keys es).Nodup)
    (hes : es = front ++ e :: back) : e.key ∉ keys (front ++ back) := by
  -- With the exchange moved to the front, its key is the first, and the
  -- keys are still distinct.
  have hperm : (keys es).Perm (keys (e :: (front ++ back))) := by
    rw [hes]
    exact List.perm_middle.map _
  exact (List.nodup_cons.mp (hperm.nodup_iff.mp h)).1

/-- Under its own key, a packet is accepted by its identifier. -/
theorem accepts_iff {e : Exchange} {kind : PacketKind} {packetId : UInt16}
    (h : ExchangeKey.ofPacket? e.packet = some e.key) :
    (e.key.kind = kind ∧ Packet.hasId packetId e.packet = true) ↔ e.key = ⟨kind, packetId⟩ := by
  obtain ⟨-, hid⟩ := ExchangeKey.ofPacket?_eq_some_iff.mp h
  rcases hkey : e.key with ⟨kind', i⟩
  simp [Packet.hasId, hid, hkey]

/-- Taking a packet by kind and identifier cuts out the first exchange under
that key, or finds none and changes nothing. -/
theorem take_cases {es : List Exchange} (h : Keyed es) (kind : PacketKind) (packetId : UInt16) :
    (∃ front e back, es = front ++ e :: back ∧ e.key = ⟨kind, packetId⟩ ∧
      take kind (Packet.hasId packetId) es = (some e.packet, front ++ back)) ∨
    (⟨kind, packetId⟩ ∉ keys es ∧ take kind (Packet.hasId packetId) es = (none, es)) := by
  -- The recursion of `take`: the first exchange is the one, or it stays in
  -- front of whatever becomes of the others.
  induction es with
  | nil => exact Or.inr ⟨by simp [keys], rfl⟩
  | cons e es ih =>
      have hiff : (e.key.kind = kind ∧ Packet.hasId packetId e.packet = true)
          ↔ e.key = ⟨kind, packetId⟩ := accepts_iff (h e List.mem_cons_self)
      by_cases hkey : e.key = ⟨kind, packetId⟩
      · exact Or.inl ⟨[], e, es, rfl, hkey, by simp only [take, if_pos (hiff.mpr hkey)]; rfl⟩
      · have hpass : take kind (Packet.hasId packetId) (e :: es)
            = ((take kind (Packet.hasId packetId) es).1,
                e :: (take kind (Packet.hasId packetId) es).2) := by
          simp only [take, if_neg (fun hacc => hkey (hiff.mp hacc))]
        rcases ih (fun e' he' => h e' (by simp [he'])) with
          ⟨front, e', back, hes, hkey', htake⟩ | ⟨hnone, htake⟩
        · exact Or.inl ⟨e :: front, e', back, by rw [hes]; rfl, hkey', by rw [hpass, htake]; rfl⟩
        · refine Or.inr ⟨?_, by rw [hpass, htake]⟩
          simp only [keys, List.map_cons, List.mem_cons, not_or]
          exact ⟨fun heq => hkey heq.symm, hnone⟩

/-- What is left after taking is in the order that it was in. -/
theorem take_sublist (kind : PacketKind) (accept : Packet → Bool) (es : List Exchange) :
    (take kind accept es).2.Sublist es := by
  induction es with
  | nil => exact List.Sublist.refl _
  | cons e es ih =>
      rw [take]
      split
      · exact List.sublist_cons_self e es
      · exact ih.cons_cons e

end Exchange

namespace Session

open Exchange

/-- What holds of every session that started empty. -/
structure WellFormed (s : Session) : Prop where
  sent_keyed : Keyed s.sent
  received_keyed : Keyed s.received
  sent_awaits : ∀ e ∈ s.sent, e.packet.awaitsAnswer = true
  received_opens : ∀ e ∈ s.received, e.packet.opensExchange = true
  sent_nodup : (keys s.sent).Nodup
  received_nodup : (keys s.received).Nodup

/-- A session without exchanges is well-formed. -/
theorem wellFormed_empty : empty.WellFormed := by
  constructor <;> simp [empty, Keyed, keys]

/-! ### Tracking -/

/-- A sent packet that has to be answered is tracked at the end, unless its
key is open. -/
theorem trackSent_cases (s : Session) (p : Packet) :
    (p.awaitsAnswer = true ∧ ∃ key, ExchangeKey.ofPacket? p = some key ∧ key ∉ keys s.sent ∧
      s.trackSent p = .ok { s with sent := s.sent ++ [⟨key, p⟩] }) ∨
    ((p.awaitsAnswer = true → ∀ key, ExchangeKey.ofPacket? p = some key → key ∈ keys s.sent) ∧
      ∃ reason, s.trackSent p = .error reason) := by
  by_cases hp : p.awaitsAnswer = true
  · rcases track_cases s.sent p with ⟨key, hkey, hfree, htrack⟩ | ⟨hopen, reason, htrack⟩
    · refine Or.inl ⟨hp, key, hkey, hfree, ?_⟩
      simp only [trackSent, hp, if_true, htrack]
      rfl
    · refine Or.inr ⟨fun _ => hopen, reason, ?_⟩
      simp only [trackSent, hp, if_true, htrack]
      rfl
  · refine Or.inr ⟨fun h => absurd h hp, .untracked p.kind, ?_⟩
    simp only [trackSent, hp]
    rfl

/-- A received packet that opens an exchange is tracked at the end, unless
its key is open. -/
theorem trackReceived_cases (s : Session) (p : Packet) :
    (p.opensExchange = true ∧ ∃ key, ExchangeKey.ofPacket? p = some key ∧
      key ∉ keys s.received ∧
      s.trackReceived p = .ok { s with received := s.received ++ [⟨key, p⟩] }) ∨
    ((p.opensExchange = true → ∀ key, ExchangeKey.ofPacket? p = some key →
        key ∈ keys s.received) ∧
      ∃ reason, s.trackReceived p = .error reason) := by
  by_cases hp : p.opensExchange = true
  · rcases track_cases s.received p with ⟨key, hkey, hfree, htrack⟩ | ⟨hopen, reason, htrack⟩
    · refine Or.inl ⟨hp, key, hkey, hfree, ?_⟩
      simp only [trackReceived, hp, if_true, htrack]
      rfl
    · refine Or.inr ⟨fun _ => hopen, reason, ?_⟩
      simp only [trackReceived, hp, if_true, htrack]
      rfl
  · refine Or.inr ⟨fun h => absurd h hp, .untracked p.kind, ?_⟩
    simp only [trackReceived, hp]
    rfl

/-- A session stays well-formed when a sent packet is tracked. -/
theorem wellFormed_trackSent {s tracked : Session} {p : Packet} (h : s.WellFormed)
    (htrack : s.trackSent p = .ok tracked) : tracked.WellFormed := by
  rcases trackSent_cases s p with ⟨hawaits, key, hkey, hfree, hok⟩ | ⟨-, reason, herror⟩
  · obtain rfl := Except.ok.inj (hok.symm.trans htrack)
    refine { h with
      sent_keyed := keyed_track h.sent_keyed hkey, sent_awaits := ?_, sent_nodup := ?_ }
    · intro e he
      rcases List.mem_append.mp he with he | he
      · exact h.sent_awaits e he
      · rw [List.mem_singleton.mp he]
        exact hawaits
    · exact nodup_track h.sent_nodup hfree
  · cases herror.symm.trans htrack

/-- A session stays well-formed when a received packet is tracked. -/
theorem wellFormed_trackReceived {s tracked : Session} {p : Packet} (h : s.WellFormed)
    (htrack : s.trackReceived p = .ok tracked) : tracked.WellFormed := by
  rcases trackReceived_cases s p with ⟨hopens, key, hkey, hfree, hok⟩ | ⟨-, reason, herror⟩
  · obtain rfl := Except.ok.inj (hok.symm.trans htrack)
    refine { h with
      received_keyed := keyed_track h.received_keyed hkey, received_opens := ?_,
      received_nodup := ?_ }
    · intro e he
      rcases List.mem_append.mp he with he | he
      · exact h.received_opens e he
      · rw [List.mem_singleton.mp he]
        exact hopens
    · exact nodup_track h.received_nodup hfree
  · cases herror.symm.trans htrack

/-! ### Taking -/

/-- Taking a sent packet by kind and identifier cuts out the exchange under
that key, or changes nothing. -/
theorem takeSent_cases {s : Session} (h : s.WellFormed) (kind : PacketKind) (packetId : UInt16) :
    (∃ front e back, s.sent = front ++ e :: back ∧ e.key = ⟨kind, packetId⟩ ∧
      s.takeSent kind (Packet.hasId packetId)
        = (some e.packet, { s with sent := front ++ back })) ∨
    (⟨kind, packetId⟩ ∉ keys s.sent ∧
      s.takeSent kind (Packet.hasId packetId) = (none, s)) := by
  unfold takeSent
  rcases take_cases h.sent_keyed kind packetId with
    ⟨front, e, back, hsent, hkey, htake⟩ | ⟨hnone, htake⟩
  · exact Or.inl ⟨front, e, back, hsent, hkey, by rw [htake]⟩
  · exact Or.inr ⟨hnone, by rw [htake]⟩

/-- Taking a received packet does the same on the other side. -/
theorem takeReceived_cases {s : Session} (h : s.WellFormed) (kind : PacketKind)
    (packetId : UInt16) :
    (∃ front e back, s.received = front ++ e :: back ∧ e.key = ⟨kind, packetId⟩ ∧
      s.takeReceived kind (Packet.hasId packetId)
        = (some e.packet, { s with received := front ++ back })) ∨
    (⟨kind, packetId⟩ ∉ keys s.received ∧
      s.takeReceived kind (Packet.hasId packetId) = (none, s)) := by
  unfold takeReceived
  rcases take_cases h.received_keyed kind packetId with
    ⟨front, e, back, hreceived, hkey, htake⟩ | ⟨hnone, htake⟩
  · exact Or.inl ⟨front, e, back, hreceived, hkey, by rw [htake]⟩
  · exact Or.inr ⟨hnone, by rw [htake]⟩

/-- A session stays well-formed when exchanges are removed. -/
theorem wellFormed_of_sublist {s t : Session} (h : s.WellFormed) (hsent : t.sent.Sublist s.sent)
    (hreceived : t.received.Sublist s.received) : t.WellFormed where
  sent_keyed := fun e he => h.sent_keyed e (hsent.subset he)
  received_keyed := fun e he => h.received_keyed e (hreceived.subset he)
  sent_awaits := fun e he => h.sent_awaits e (hsent.subset he)
  received_opens := fun e he => h.received_opens e (hreceived.subset he)
  sent_nodup := h.sent_nodup.sublist (hsent.map _)
  received_nodup := h.received_nodup.sublist (hreceived.map _)

/-- Taking a sent PUBLISH cuts out its exchange, or changes nothing. -/
theorem takeSentPublish_cases {s : Session} (h : s.WellFormed) (packetId : UInt16) :
    (∃ front m back,
      s.sent = front ++ ⟨⟨.publish, packetId⟩, .publish m⟩ :: back ∧
      s.takeSentPublish packetId = (some m, { s with sent := front ++ back })) ∨
    (⟨.publish, packetId⟩ ∉ keys s.sent ∧ s.takeSentPublish packetId = (none, s)) := by
  unfold takeSentPublish
  rcases takeSent_cases h .publish packetId with
    ⟨front, e, back, hes, hkey, htake⟩ | ⟨hnone, htake⟩
  · obtain ⟨m, hpacket⟩ := Packet.eq_publish_of_kind (kind_of_cut h.sent_keyed hes hkey)
    refine Or.inl ⟨front, m, back, ?_, by rw [htake, hpacket]⟩
    rw [hes, ← hkey, ← hpacket]
  · exact Or.inr ⟨hnone, by rw [htake]⟩

/-- Taking a sent SUBSCRIBE cuts out its exchange, or changes nothing. -/
theorem takeSentSubscribe_cases {s : Session} (h : s.WellFormed) (packetId : UInt16) :
    (∃ front r back,
      s.sent = front ++ ⟨⟨.subscribe, packetId⟩, .subscribe r⟩ :: back ∧
      s.takeSentSubscribe packetId = (some r, { s with sent := front ++ back })) ∨
    (⟨.subscribe, packetId⟩ ∉ keys s.sent ∧ s.takeSentSubscribe packetId = (none, s)) := by
  unfold takeSentSubscribe
  rcases takeSent_cases h .subscribe packetId with
    ⟨front, e, back, hes, hkey, htake⟩ | ⟨hnone, htake⟩
  · obtain ⟨r, hpacket⟩ := Packet.eq_subscribe_of_kind (kind_of_cut h.sent_keyed hes hkey)
    refine Or.inl ⟨front, r, back, ?_, by rw [htake, hpacket]⟩
    rw [hes, ← hkey, ← hpacket]
  · exact Or.inr ⟨hnone, by rw [htake]⟩

/-- Taking a sent UNSUBSCRIBE cuts out its exchange, or changes nothing. -/
theorem takeSentUnsubscribe_cases {s : Session} (h : s.WellFormed) (packetId : UInt16) :
    (∃ front r back,
      s.sent = front ++ ⟨⟨.unsubscribe, packetId⟩, .unsubscribe r⟩ :: back ∧
      s.takeSentUnsubscribe packetId = (some r, { s with sent := front ++ back })) ∨
    (⟨.unsubscribe, packetId⟩ ∉ keys s.sent ∧ s.takeSentUnsubscribe packetId = (none, s)) := by
  unfold takeSentUnsubscribe
  rcases takeSent_cases h .unsubscribe packetId with
    ⟨front, e, back, hes, hkey, htake⟩ | ⟨hnone, htake⟩
  · obtain ⟨r, hpacket⟩ := Packet.eq_unsubscribe_of_kind (kind_of_cut h.sent_keyed hes hkey)
    refine Or.inl ⟨front, r, back, ?_, by rw [htake, hpacket]⟩
    rw [hes, ← hkey, ← hpacket]
  · exact Or.inr ⟨hnone, by rw [htake]⟩

/-- Taking a received PUBLISH cuts out its exchange, or changes nothing. -/
theorem takeReceivedPublish_cases {s : Session} (h : s.WellFormed) (packetId : UInt16) :
    (∃ front m back,
      s.received = front ++ ⟨⟨.publish, packetId⟩, .publish m⟩ :: back ∧
      s.takeReceivedPublish packetId = (some m, { s with received := front ++ back })) ∨
    (⟨.publish, packetId⟩ ∉ keys s.received ∧ s.takeReceivedPublish packetId = (none, s)) := by
  unfold takeReceivedPublish
  rcases takeReceived_cases h .publish packetId with
    ⟨front, e, back, hes, hkey, htake⟩ | ⟨hnone, htake⟩
  · obtain ⟨m, hpacket⟩ := Packet.eq_publish_of_kind (kind_of_cut h.received_keyed hes hkey)
    refine Or.inl ⟨front, m, back, ?_, by rw [htake, hpacket]⟩
    rw [hes, ← hkey, ← hpacket]
  · exact Or.inr ⟨hnone, by rw [htake]⟩

/-- Taking a PUBREC cuts out its exchange, or changes nothing. -/
theorem takeReceivedPubRec_cases {s : Session} (h : s.WellFormed) (packetId : UInt16) :
    (∃ front e back, s.received = front ++ e :: back ∧ e.key = ⟨.pubRec, packetId⟩ ∧
      s.takeReceivedPubRec packetId = (true, { s with received := front ++ back })) ∨
    (⟨.pubRec, packetId⟩ ∉ keys s.received ∧ s.takeReceivedPubRec packetId = (false, s)) := by
  unfold takeReceivedPubRec
  rcases takeReceived_cases h .pubRec packetId with
    ⟨front, e, back, hes, hkey, htake⟩ | ⟨hnone, htake⟩
  · exact Or.inl ⟨front, e, back, hes, hkey, by rw [htake]; rfl⟩
  · exact Or.inr ⟨hnone, by rw [htake]; rfl⟩

/-- Whatever packet is asked for, a session that one was taken from stays
well-formed. -/
theorem wellFormed_takeSent {s : Session} (h : s.WellFormed) (kind : PacketKind)
    (accept : Packet → Bool) : (s.takeSent kind accept).2.WellFormed :=
  wellFormed_of_sublist h (take_sublist kind accept s.sent) (List.Sublist.refl _)

/-- So does a session that one was taken from on the other side. -/
theorem wellFormed_takeReceived {s : Session} (h : s.WellFormed) (kind : PacketKind)
    (accept : Packet → Bool) : (s.takeReceived kind accept).2.WellFormed :=
  wellFormed_of_sublist h (List.Sublist.refl _) (take_sublist kind accept s.received)

/-- Taking a sent message by its identifier keeps a session well-formed. -/
theorem wellFormed_takeSentPublish {s : Session} (h : s.WellFormed) (packetId : UInt16) :
    (s.takeSentPublish packetId).2.WellFormed := by
  have htaken := wellFormed_takeSent h .publish (Packet.hasId packetId)
  unfold takeSentPublish
  split <;> (next heq => rw [heq] at htaken; exact htaken)

/-- So does taking a SUBSCRIBE. -/
theorem wellFormed_takeSentSubscribe {s : Session} (h : s.WellFormed) (packetId : UInt16) :
    (s.takeSentSubscribe packetId).2.WellFormed := by
  have htaken := wellFormed_takeSent h .subscribe (Packet.hasId packetId)
  unfold takeSentSubscribe
  split <;> (next heq => rw [heq] at htaken; exact htaken)

/-- So does taking an UNSUBSCRIBE. -/
theorem wellFormed_takeSentUnsubscribe {s : Session} (h : s.WellFormed) (packetId : UInt16) :
    (s.takeSentUnsubscribe packetId).2.WellFormed := by
  have htaken := wellFormed_takeSent h .unsubscribe (Packet.hasId packetId)
  unfold takeSentUnsubscribe
  split <;> (next heq => rw [heq] at htaken; exact htaken)

/-- So does taking a message that came in at level 2. -/
theorem wellFormed_takeReceivedPublish {s : Session} (h : s.WellFormed) (packetId : UInt16) :
    (s.takeReceivedPublish packetId).2.WellFormed := by
  have htaken := wellFormed_takeReceived h .publish (Packet.hasId packetId)
  unfold takeReceivedPublish
  split <;> (next heq => rw [heq] at htaken; exact htaken)

/-- So does taking the mark that a PUBREC left. -/
theorem wellFormed_takeReceivedPubRec {s : Session} (h : s.WellFormed) (packetId : UInt16) :
    (s.takeReceivedPubRec packetId).2.WellFormed :=
  wellFormed_takeReceived h .pubRec (Packet.hasId packetId)

/-! ### Redelivery -/

/-- What is taken out for redelivery is not held any more, the rest stays in
its order. -/
theorem wellFormed_redeliver {s : Session} (h : s.WellFormed) : s.redeliver.2.WellFormed :=
  wellFormed_of_sublist h List.filter_sublist (List.Sublist.refl _)

end Session

end Mqtt
