import Mqtt.Proofs.Client.Delivery
import Mqtt.Proofs.Client.Identifiers
import Mqtt.Proofs.Client.Release

/-!
# `Mqtt.Proofs.Client.Receipt`: who a PUBREC was for

A PUBREC releases the PUBLISH that is tracked under its identifier: from
then on a new connection writes PUBREL instead of the message. The session
remembers this by the PUBREC itself, under the bare identifier.

* `Core.isReleased_route`: PUBREC leaves that mark and PUBCOMP takes it away.
  PUBACK completes the message too, and leaves the mark behind.
* `Core.receipts_moves`: every mark is the receipt of a PUBLISH that is
  tracked, or it was left behind by a PUBACK (`Core.Receipts`).
* `Client.released_receipted`: what a new connection writes for the messages of
  a session, whoever left the session (`Client.Inherited`).

A mark that was left behind is taken for the receipt of the next message that
gets the identifier, and the message is lost (`Client.staleRun`).
-/

set_option autoImplicit false

namespace Mqtt

namespace Log

/-- Whether the server answered a message with PUBREC after the message was
written, and the exchange was not ended since. -/
def Receipted (log : List Event) (m : Message) : Prop :=
  ∃ before since out, log = before ++ .received (.pubRec m.packetId) :: since ∧
    OutSince before (.publish m) out ∧
    (∀ q ∈ completed since, ExchangeKey.ofPacket? q ≠ ExchangeKey.ofPacket? (.publish m)) ∧
    Event.received (.pubComp m.packetId) ∉ since

/-- Whether a message was answered with PUBREC and then completed by PUBACK, and
no PUBCOMP came under its identifier since. -/
def LeftReleased (log : List Event) (i : UInt16) : Prop :=
  ∃ before m handler since,
    log = before ++ .received (.pubAck i) :: .notified (.deliveryCompleted m) handler :: since ∧
    m.packetId = i ∧ Receipted before m ∧ Event.received (.pubComp i) ∉ since

/-- A receipt is good until the exchange ends. -/
theorem Receipted.append {log events : List Event} {m : Message} (h : Receipted log m)
    (hother : ∀ q ∈ completed events, ExchangeKey.ofPacket? q ≠ ExchangeKey.ofPacket? (.publish m))
    (hcomp : Event.received (.pubComp m.packetId) ∉ events) : Receipted (log ++ events) m := by
  obtain ⟨before, since, out, hlog, hout, hsince, hnone⟩ := h
  refine ⟨before, since ++ events, out, ?_, hout, ?_, ?_⟩
  · rw [hlog, List.append_assoc, List.cons_append]
  · intro q hq
    rw [completed_append, List.mem_append] at hq
    exact hq.elim (hsince q) (hother q)
  · exact List.not_mem_append hnone hcomp

/-- What PUBACK left behind stays until a PUBCOMP comes. -/
theorem LeftReleased.append {log events : List Event} {i : UInt16} (h : LeftReleased log i)
    (hcomp : Event.received (.pubComp i) ∉ events) : LeftReleased (log ++ events) i := by
  obtain ⟨before, m, handler, since, hlog, hid, hreceipted, hnone⟩ := h
  refine ⟨before, m, handler, since ++ events, ?_, hid, hreceipted, List.not_mem_append hnone hcomp⟩
  rw [hlog, List.append_assoc, List.cons_append, List.cons_append]

end Log

namespace Session

/-- A PUBLISH counts as released when a PUBREC is tracked under its identifier. -/
theorem isReleased_iff {s : Session} {i : UInt16} :
    s.isReleased i = true ↔ ⟨.pubRec, i⟩ ∈ Exchange.keys s.received :=
  Exchange.isOpen_iff

/-- The PUBREC that is tracked is the mark itself. -/
theorem isReleased_iff_mem {s : Session} (h : s.WellFormed) {i : UInt16} :
    s.isReleased i = true ↔ (⟨⟨.pubRec, i⟩, .pubRec i⟩ : Exchange) ∈ s.received := by
  rw [isReleased_iff]
  refine ⟨fun hkey => ?_, fun hmem => List.mem_map_of_mem hmem⟩
  obtain ⟨⟨key, p⟩, he, rfl⟩ := List.mem_map.mp hkey
  obtain ⟨hkind, hid⟩ := ExchangeKey.ofPacket?_eq_some_iff.mp (h.received_keyed _ he)
  cases p <;> simp [Packet.kind] at hkind
  obtain rfl := Option.some.inj hid
  exact he

/-- Under the key of a PUBLISH there is no other message. -/
theorem message_eq {s : Session} (h : s.WellFormed) {i : UInt16} {m m' : Message}
    (hm : (⟨⟨.publish, i⟩, .publish m⟩ : Exchange) ∈ s.sent)
    (hm' : (⟨⟨.publish, i⟩, .publish m'⟩ : Exchange) ∈ s.sent) : m = m' := by
  have heq := List.inj_on_of_nodup_map h.sent_nodup hm hm' rfl
  exact Packet.publish.inj (Exchange.mk.inj heq).2

/-- What is tracked under the key of a PUBLISH is a message. -/
theorem exists_message {s : Session} (h : s.WellFormed) {i : UInt16}
    (hkey : ⟨.publish, i⟩ ∈ Exchange.keys s.sent) :
    ∃ m, (⟨⟨.publish, i⟩, .publish m⟩ : Exchange) ∈ s.sent := by
  obtain ⟨⟨key, p⟩, he, rfl⟩ := List.mem_map.mp hkey
  obtain ⟨hkind, -⟩ := ExchangeKey.ofPacket?_eq_some_iff.mp (h.sent_keyed _ he)
  obtain ⟨m, rfl⟩ := Packet.eq_publish_of_kind hkind
  exact ⟨m, he⟩

/-- A tracked PUBLISH has the identifier that it is tracked under. -/
theorem packetId_eq {s : Session} (h : s.WellFormed) {i : UInt16} {m : Message}
    (hm : (⟨⟨.publish, i⟩, .publish m⟩ : Exchange) ∈ s.sent) : m.packetId = i :=
  (Packet.packetId?_publish (Exchange.packetId?_of_mem h.sent_keyed hm)).2

/-- Taking a sent PUBLISH leaves the receiving side alone. -/
theorem takeSentPublish_received {s : Session} (h : s.WellFormed) (i : UInt16) :
    (s.takeSentPublish i).2.received = s.received := by
  rcases takeSentPublish_cases h i with ⟨front, m, back, -, htake⟩ | ⟨-, htake⟩ <;> rw [htake]

end Session

namespace Core

/-! ### The mark that a PUBREC leaves -/

/-- Tracking a sent packet leaves the receiving side alone. -/
theorem trackSent_received (core : Core) (p : Packet) :
    (core.trackSent p).1.session.received = core.session.received := by
  unfold trackSent
  rcases core.session.trackSent_cases p with ⟨-, key, -, -, hok⟩ | ⟨-, reason, herr⟩
  · rw [hok]
  · rw [herr]

/-- Opening an exchange opens its key, and no other. -/
theorem keys_trackReceived {core : Core} {p : Packet} {key : ExchangeKey}
    (hopens : p.opensExchange = true) (hkey : ExchangeKey.ofPacket? p = some key)
    (other : ExchangeKey) :
    other ∈ Exchange.keys (core.trackReceived p).session.received ↔
      other ∈ Exchange.keys core.session.received ∨ other = key := by
  rcases trackReceived_received core p with ⟨key', hkey', -, hreceived⟩ | ⟨hopen, hreceived⟩
  · obtain rfl := Option.some.inj (hkey.symm.trans hkey')
    rw [hreceived, Exchange.keys, List.map_append, List.mem_append]
    exact or_congr_right List.mem_singleton
  · rw [hreceived]
    refine ⟨Or.inl, ?_⟩
    rintro (hmem | rfl)
    · exact hmem
    · exact hopen hopens _ hkey

/-- Closing an exchange closes its key, and no other. -/
theorem keys_cut {es front back : List Exchange} {e : Exchange} (h : (Exchange.keys es).Nodup)
    (hes : es = front ++ e :: back) (other : ExchangeKey) :
    other ∈ Exchange.keys (front ++ back) ↔ other ∈ Exchange.keys es ∧ other ≠ e.key := by
  have hfree := Exchange.key_not_mem_cut h hes
  have hmem : other ∈ Exchange.keys es ↔ other = e.key ∨ other ∈ Exchange.keys (front ++ back) := by
    rw [hes]
    simp only [Exchange.keys, List.map_append, List.map_cons, List.mem_append, List.mem_cons]
    tauto
  rw [hmem]
  constructor
  · intro hother
    exact ⟨Or.inr hother, fun heq => hfree (heq ▸ hother)⟩
  · rintro ⟨rfl | hother, hne⟩
    · exact absurd rfl hne
    · exact hother

/-- PUBREC marks the PUBLISH under its identifier, if one is tracked. -/
theorem isReleased_route_pubRec {core : Core} (h : core.session.WellFormed) (j i : UInt16) :
    (core.route (.pubRec j)).core.session.isReleased i = true ↔
      core.session.isReleased i = true ∨
        (j = i ∧ ⟨.publish, i⟩ ∈ Exchange.keys core.session.sent) := by
  rcases Session.takeSentPublish_cases h j with ⟨front, m, back, hsent, htake⟩ | ⟨hnone, htake⟩
  · have hmem : (⟨.publish, j⟩ : ExchangeKey) ∈ Exchange.keys core.session.sent :=
      List.mem_map_of_mem (mem_cut hsent)
    have hkeys : (⟨.pubRec, i⟩ : ExchangeKey)
          ∈ Exchange.keys (core.route (.pubRec j)).core.session.received ↔
        ⟨.pubRec, i⟩ ∈ Exchange.keys core.session.received ∨ i = j := by
      simp only [route, routePubRec, htake]
      refine (keys_trackReceived rfl rfl _).trans ?_
      rw [trackSent_received]
      simp [Packet.kind]
    rw [Session.isReleased_iff, hkeys, ← Session.isReleased_iff]
    -- The mark is new if the identifiers are the same.
    by_cases hi : j = i
    · subst hi
      simp [hmem]
    · simp [hi, Ne.symm hi]
  · simp only [route, routePubRec, htake]
    by_cases hi : j = i
    · subst hi
      simp [hnone]
    · simp [hi]

/-- PUBCOMP takes the mark under its identifier away, whether there is one or not. -/
theorem isReleased_route_pubComp {core : Core} (h : core.session.WellFormed) (j i : UInt16) :
    (core.route (.pubComp j)).core.session.isReleased i = true ↔
      core.session.isReleased i = true ∧ j ≠ i := by
  have hmark := Session.wellFormed_takeReceivedPubRec h j
  have hroute : (core.route (.pubComp j)).core.session.received
      = (core.session.takeReceivedPubRec j).2.received :=
    Session.takeSentPublish_received hmark j
  rw [Session.isReleased_iff, hroute, Session.isReleased_iff]
  rcases Session.takeReceivedPubRec_cases h j with
    ⟨front, e, back, hreceived, hkey, htake⟩ | ⟨hnone, htake⟩
  · rw [htake]
    show _ ∈ Exchange.keys (front ++ back) ↔ _
    rw [keys_cut h.received_nodup hreceived, hkey]
    simp [eq_comm]
  · rw [htake]
    refine ⟨fun hmem => ⟨hmem, ?_⟩, And.left⟩
    rintro rfl
    exact hnone hmem

/-- A PUBLISH counts as released after a packet was routed if it did before and
the packet is no PUBCOMP for it, or if the packet is a PUBREC for it. -/
theorem isReleased_route {core : Core} (h : core.session.WellFormed) (p : Packet) (i : UInt16) :
    (core.route p).core.session.isReleased i = true ↔
      (core.session.isReleased i = true ∧ p ≠ .pubComp i) ∨
        (p = .pubRec i ∧ ⟨.publish, i⟩ ∈ Exchange.keys core.session.sent) := by
  -- Most packets leave the receiving side as it is.
  have hkept : (core.route p).core.session.received = core.session.received →
      p ≠ .pubComp i → p ≠ .pubRec i →
      ((core.route p).core.session.isReleased i = true ↔
        (core.session.isReleased i = true ∧ p ≠ .pubComp i) ∨
          (p = .pubRec i ∧ ⟨.publish, i⟩ ∈ Exchange.keys core.session.sent)) := by
    intro hreceived hcomp hrec
    rw [Session.isReleased_iff, hreceived, ← Session.isReleased_iff]
    simp [hcomp, hrec]
  cases p with
  | publish m =>
      by_cases hqos : m.qos = .exactlyOnce
      · have hkey : ExchangeKey.ofPacket? (.publish m) = some ⟨.publish, m.packetId⟩ :=
          ExchangeKey.ofPacket?_eq_some_iff.mpr ⟨rfl, by simp [Packet.packetId?, hqos]⟩
        have hroute : (core.route (.publish m)).core.session
            = (core.trackReceived (.publish m)).session := by
          simp only [route, routePublish, hqos]
          rfl
        have hopens : (Packet.publish m).opensExchange = true := decide_eq_true hqos
        rw [Session.isReleased_iff, hroute, keys_trackReceived hopens hkey,
          ← Session.isReleased_iff]
        simp
      · refine hkept ?_ (by simp) (by simp)
        simp only [route, routePublish]
        split <;> first | rfl | contradiction
  | pubAck j => exact hkept (Session.takeSentPublish_received h j) (by simp) (by simp)
  | pubRec j =>
      rw [isReleased_route_pubRec h]
      simp
  | pubRel j =>
      rcases Session.takeReceivedPublish_cases h j with
        ⟨front, m, back, hreceived, htake⟩ | ⟨-, htake⟩
      · rw [Session.isReleased_iff, Session.isReleased_iff]
        simp only [route, htake]
        show _ ∈ Exchange.keys (front ++ back) ↔ _
        rw [keys_cut h.received_nodup hreceived]
        simp
      · exact hkept (by simp only [route, htake]; rfl) (by simp) (by simp)
  | pubComp j =>
      rw [isReleased_route_pubComp h]
      simp
  | subAck j granted =>
      refine hkept ?_ (by simp) (by simp)
      rcases Session.takeSentSubscribe_cases h j with ⟨front, r, back, -, htake⟩ | ⟨-, htake⟩ <;>
        simp only [route, htake]
  | unsubAck j =>
      refine hkept ?_ (by simp) (by simp)
      rcases Session.takeSentUnsubscribe_cases h j with ⟨front, r, back, -, htake⟩ | ⟨-, htake⟩ <;>
        simp only [route, htake]
  | _ => exact hkept rfl (by simp) (by simp)

/-- Only a packet that comes in marks a PUBLISH or takes its mark away, unless a
clean connection empties the session. -/
theorem isReleased_move {connecting : Bool} {core core' : Core} {events : List Event}
    (h : core.session.WellFormed) (hmove : Move connecting core events core') (i : UInt16) :
    (core.settings.cleanSession = true ∧ core'.session = .empty) ∨
    (core'.session.isReleased i = true ↔
      (core.session.isReleased i = true ∧ Event.received (.pubComp i) ∉ events) ∨
        ((∃ rest, events = .received (.pubRec i) :: rest) ∧
          ⟨.publish, i⟩ ∈ Exchange.keys core.session.sent)) := by
  -- Without a packet the receiving side stays as it is.
  have hquiet : core'.session.received = core.session.received →
      (∀ p, Event.received p ∉ events) →
      (core'.session.isReleased i = true ↔
        (core.session.isReleased i = true ∧ Event.received (.pubComp i) ∉ events) ∨
          ((∃ rest, events = .received (.pubRec i) :: rest) ∧
            ⟨.publish, i⟩ ∈ Exchange.keys core.session.sent)) := by
    intro hreceived hnone
    have hfirst : ¬∃ rest, events = .received (.pubRec i) :: rest := by
      rintro ⟨rest, hevents⟩
      exact hnone (.pubRec i) (by rw [hevents]; exact List.mem_cons_self)
    rw [Session.isReleased_iff, hreceived, ← Session.isReleased_iff]
    simp [hnone, hfirst]
  cases hmove.effect h with
  | aside hbooks haside =>
      refine Or.inr (hquiet ?_ ?_)
      · rw [show core'.session = core.session from congrArg Books.session hbooks]
      · intro p hmem
        cases haside _ hmem
  | route p handler hrouting =>
      right
      rw [isReleased_route h p i]
      have hcomp : Event.received (.pubComp i)
          ∉ .received p :: (core.route p).notice.toList.map (.notified · handler) ↔
          p ≠ .pubComp i := by
        simp [eq_comm]
      rw [hcomp]
      simp
  | forget now hclean => exact Or.inl ⟨hclean, rfl⟩
  | _ => exact Or.inr (hquiet rfl (by simp))

/-- A released PUBLISH stays tracked until it is acknowledged, unless a clean
connection empties the session. -/
theorem tracked_of_released {connecting : Bool} {core core' : Core} {events : List Event}
    (h : core.session.WellFormed) (hmove : Move connecting core events core') {i : UInt16}
    {m : Message} (he : ⟨⟨.publish, i⟩, .publish m⟩ ∈ core.session.sent)
    (hreleased : core.session.isReleased i = true) :
    (core.settings.cleanSession = true ∧ core'.session = .empty) ∨
    ⟨⟨.publish, i⟩, .publish m⟩ ∈ core'.session.sent ∨
    ∃ ack handler, (ack = .pubAck i ∨ ack = .pubComp i) ∧
      events = [.received ack, .notified (.deliveryCompleted m) handler] := by
  cases hmove.effect h with
  | aside hbooks haside =>
      rw [show core'.session = core.session from congrArg Books.session hbooks]
      exact Or.inr (Or.inl he)
  | track hpending => exact Or.inr (Or.inl (List.mem_append_left _ he))
  -- Of what comes in, only PUBACK and PUBCOMP complete a message.
  | route p handler hrouting =>
      refine Or.inr ((route_keeps h p he).imp_right ?_)
      rintro ⟨hack, n, hnotice, hrequest⟩
      refine ⟨p, handler, ?_, ?_⟩
      · rw [← Session.packetId_eq h he]
        exact Packet.acknowledges_publish_iff.mp hack
      · rw [hnotice, Notice.eq_deliveryCompleted hrequest]
        rfl
  | forget now hclean => exact Or.inl ⟨hclean, rfl⟩
  | redeliver now => exact Or.inr (Or.inl (List.mem_filter.mpr ⟨he, hreleased⟩))
  | _ => exact Or.inr (Or.inl he)

/-- A PUBREC releases the PUBLISH that is tracked under its identifier, and tells
the application nothing. -/
theorem released_of_pubRec {connecting : Bool} {core core' : Core} {rest : List Event}
    {i : UInt16} {m : Message} (h : core.session.WellFormed)
    (hmove : Move connecting core (.received (.pubRec i) :: rest) core')
    (he : ⟨⟨.publish, i⟩, .publish m⟩ ∈ core.session.sent) :
    rest = [] ∧ ⟨⟨.publish, i⟩, .publish m⟩ ∈ core'.session.sent ∧
      core'.session.isReleased i = true := by
  cases hmove.effect h with
  | aside hbooks haside => cases haside _ List.mem_cons_self
  | route p handler hrouting =>
      have hnotice : (core.route (.pubRec i)).notice = none := by
        simp only [route, routePubRec]
        split <;> rfl
      refine ⟨by rw [hnotice]; rfl, ?_, ?_⟩
      · exact (route_keeps h (.pubRec i) he).resolve_right (by simp [Packet.acknowledges])
      · exact (isReleased_route h (.pubRec i) i).mpr (Or.inr ⟨rfl, List.mem_map_of_mem he⟩)

/-! ### Receipts -/

/-- Every mark is the receipt of a tracked PUBLISH, or was left behind. -/
structure Receipts (log : List Event) (core : Core) : Prop where
  answering : Answering log core
  receipt : ∀ i, core.session.isReleased i = true →
    (∃ m, ⟨⟨.publish, i⟩, .publish m⟩ ∈ core.session.sent ∧ Log.Receipted log m) ∨
    Log.LeftReleased log i

/-- Every move keeps the invariant. -/
theorem receipts_move {connecting : Bool} {log events : List Event} {core core' : Core}
    (h : Receipts log core) (hmove : Move connecting core events core') :
    Receipts (log ++ events) core' := by
  have hwell := h.answering.wellFormed
  refine ⟨answering_move h.answering hmove, ?_⟩
  intro i hreleased
  rcases isReleased_move hwell hmove i with ⟨-, hempty⟩ | hmark
  · rw [hempty] at hreleased
    cases hreleased
  rcases hmark.mp hreleased with ⟨hbefore, hcomp⟩ | ⟨⟨rest, hevents⟩, htracked⟩
  · -- The mark was there before: its PUBLISH is still tracked, or PUBACK leaves
    -- the mark behind.
    rcases h.receipt i hbefore with ⟨m, hm, hreceipted⟩ | hleft
    · have hid := Session.packetId_eq hwell hm
      rcases tracked_of_released hwell hmove hm hbefore with
        ⟨-, hempty⟩ | hm' | ⟨ack, handler, hack, hevents⟩
      · rw [hempty] at hreleased
        cases hreleased
      · refine Or.inl ⟨m, hm', hreceipted.append ?_ (by rw [hid]; exact hcomp)⟩
        rw [hwell.sent_keyed _ hm]
        rcases sent_move hwell hmove _ hm' with ⟨-, hother⟩ | hevents
        · exact hother
        · rw [hevents]
          simp [Log.completed, Event.completed?]
      · rcases hack with rfl | rfl
        · exact Or.inr ⟨log, m, handler, [], by rw [hevents], hid, hreceipted, by simp⟩
        · rw [hevents] at hcomp
          simp at hcomp
    · exact Or.inr (hleft.append hcomp)
  · -- The PUBREC comes now, and the PUBLISH that it is for stays tracked.
    obtain ⟨m, hm⟩ := Session.exists_message hwell htracked
    have hid := Session.packetId_eq hwell hm
    rw [hevents] at hmove ⊢
    obtain ⟨rfl, hm', -⟩ := released_of_pubRec hwell hmove hm
    obtain ⟨out, hout⟩ := h.answering.out _ hm
    exact Or.inl ⟨m, hm', log, [], out, by rw [hid], hout, by simp [Log.completed], by simp⟩

/-- Chains of moves keep the invariant. -/
theorem receipts_moves {connecting : Bool} {start core : Core} {past log : List Event}
    (h : Receipts past start) (hmoves : Moves connecting start log core) :
    Receipts (past ++ log) core := by
  induction hmoves with
  | refl => rw [List.append_nil]; exact h
  | snoc _ hmove ih => rw [← List.append_assoc]; exact receipts_move ih hmove

/-- What is known of a session is known of a core that starts with it. -/
theorem receipts_new {log : List Event} {core : Core} (h : Receipts log core)
    (settings : Settings) (link : Link) (now : Nat) :
    Receipts log (new settings core.session link now) where
  answering := ⟨h.answering.wellFormed, h.answering.out, h.answering.answered⟩
  receipt := h.receipt

/-- An empty session has no mark. -/
theorem receipts_empty (settings : Settings) (link : Link) (now : Nat) :
    Receipts [] (new settings .empty link now) where
  answering := answering_new settings link now
  receipt := by
    intro i hreleased
    cases hreleased

end Core

namespace Client

/-- The sessions that a client may start with, an empty one or that of another
client, and what was logged by all the clients that the session went through. -/
inductive Inherited : List Event → Session → Prop where
  | empty : Inherited [] .empty
  | snapshot {past : List Event} {s left : Session} (settings : Settings) (link : Link)
      (as : List Action) (h : Inherited past s)
      (hsession : ((new settings s link).run as).1.session? = some left) :
      Inherited (past ++ ((new settings s link).run as).2) left

/-- The marks of a session can be told by the logs of the clients that it went
through. -/
theorem Inherited.receipts {past : List Event} {s : Session} (h : Inherited past s)
    (settings : Settings) (link : Link) : Core.Receipts past (Core.new settings s link 0) := by
  induction h generalizing settings link with
  | empty => exact Core.receipts_empty settings link 0
  | @snapshot past s left settings' link' as _ hsession ih =>
      obtain ⟨last, hmoves, hlast⟩ :=
        moves_run (new settings' s link') as (Core.new settings' s link' 0) rfl
      obtain ⟨core, hcore, rfl⟩ := core?_of_session? hsession
      obtain rfl := hlast core hcore
      exact Core.receipts_new (Core.receipts_moves (ih settings' link') hmoves) settings link 0

/-- What a new connection writes for the messages of the session, whoever left
the session to the client. A message stays in the session, and PUBREL is
queued for it, only if the server answered it with PUBREC after it was
written, or if an earlier message under its identifier was answered with PUBREC
and then with PUBACK. Every other message is queued again, and so is what
was in the queue already. -/
theorem released_receipted (settings : Settings) {past : List Event} {s : Session} (link : Link)
    (as : List Action) (opening : Option ClientError) (hs : Inherited past s)
    (hkept : settings.cleanSession = false) {core : Core}
    (hcore : ((new settings s link).run as).1.loop.core? = some core)
    (hestablishes : ((new settings s link).run as).1.establishes (.connect opening) = true) :
    ∃ core', (((new settings s link).run as).1.connect opening).1.loop.core? = some core' ∧
      (∀ i m, ⟨⟨.publish, i⟩, .publish m⟩ ∈ core.session.sent →
        (⟨⟨.publish, i⟩, .publish m⟩ ∈ core'.session.sent ∧ .pubRel i ∈ core'.pending ∧
          (Log.Receipted (past ++ ((new settings s link).run as).2) m ∨
            Log.LeftReleased (past ++ ((new settings s link).run as).2) i)) ∨
        (⟨⟨.publish, i⟩, .publish m⟩ ∉ core'.session.sent ∧
          .publish { m with duplicate := true } ∈ core'.pending)) ∧
      ∀ m, .publish m ∈ core.pending → .publish m ∈ core'.pending := by
  obtain ⟨last, hmoves, hlast⟩ :=
    moves_run (new settings s link) as (Core.new settings s link 0) rfl
  obtain rfl := hlast core hcore
  have hreceipts := Core.receipts_moves (hs.receipts settings link) hmoves
  have hwell := hreceipts.answering.wellFormed
  have hclean := Core.cleanSession_moves hmoves hkept
  -- The connection is made with the core of the run, on some network.
  obtain ⟨link', hloop⟩ := connect_establishes hcore hestablishes
  rw [Core.resume_kept { core with link := link' } _ hclean] at hloop
  refine ⟨_, by rw [hloop]; rfl, ?_, ?_⟩
  · intro i m hm
    have hredelivery : core.session.redelivery ⟨⟨.publish, i⟩, .publish m⟩
        ∈ core.session.redeliver.1 ++ core.pending.filter Packet.isRequest :=
      List.mem_append_left _ (List.mem_map_of_mem hm)
    -- A mark decides between PUBREL and the message. Where it is from is told by the logs.
    cases hreleased : core.session.isReleased i with
    | true =>
        rw [show core.session.redelivery ⟨⟨.publish, i⟩, .publish m⟩ = .pubRel i from
          if_pos hreleased] at hredelivery
        refine Or.inl ⟨List.mem_filter.mpr ⟨hm, hreleased⟩, hredelivery, ?_⟩
        refine (hreceipts.receipt i hreleased).imp_left ?_
        rintro ⟨m', hm', hreceipted⟩
        rw [Session.message_eq hwell hm hm']
        exact hreceipted
    | false =>
        rw [show core.session.redelivery ⟨⟨.publish, i⟩, .publish m⟩
          = .publish { m with duplicate := true } from
          if_neg (Bool.eq_false_iff.mp hreleased)] at hredelivery
        refine Or.inr ⟨fun hstays => ?_, hredelivery⟩
        cases hreleased.symm.trans (List.mem_filter.mp hstays).2
  -- What waits in the queue is a request, and is kept.
  · intro m hm
    exact List.mem_append_right _ (List.mem_filter.mpr ⟨hm, rfl⟩)

/-- A message is answered with PUBREC and with PUBACK, and the client disconnects. -/
def crossingRun : List Action :=
  [.request (.publish ⟨"a", [1], .exactlyOnce, false, false, 0⟩),
    .expect [.ok (.connAck false .accepted), .ok (.pubRec 1), .ok (.pubAck 1)],
    .connect none, .turn, .turn, .turn, .turn, .disconnect false]

/-- The PUBREC is all that it leaves. -/
def markedSession : Session :=
  ⟨[], [⟨⟨.pubRec, 1⟩, .pubRec 1⟩]⟩

/-- Another client may start with it. -/
theorem inherited_markedSession :
    Inherited ((new default .empty default).run crossingRun).2 markedSession :=
  .snapshot default default crossingRun .empty (by decide)

/-- Another client writes two messages of its own, and the connection ends before
the server answers. -/
def staleRun : List Action :=
  [.expect [.ok (.connAck true .accepted)], .connect none,
    .request (.publish ⟨"b", [2], .exactlyOnce, false, false, 0⟩),
    .request (.publish ⟨"c", [3], .exactlyOnce, false, false, 0⟩), .turn, .disconnect false,
    .expect [.ok (.connAck true .accepted)]]

/-- The second message is queued again. The first one is not, for the PUBREC that
the other client left stands under its identifier. -/
theorem released_receipted_staleRun :
    ∃ core', (((new default markedSession default).run staleRun).1.connect none).1.loop.core?
        = some core' ∧
      core'.session.isReleased 1 = true ∧ .pubRel 1 ∈ core'.pending ∧
      .publish ⟨"c", [3], .exactlyOnce, false, true, 2⟩ ∈ core'.pending := by
  have hsent : ((new default markedSession default).run staleRun).1.loop.core?.any
      (fun core => ⟨⟨.publish, 2⟩, .publish ⟨"c", [3], .exactlyOnce, false, false, 2⟩⟩
        ∈ core.session.sent) = true := by
    decide
  have hnext : (((new default markedSession default).run staleRun).1.connect none).1.loop.core?.any
      (fun core => core.session.isReleased 1 = true ∧ .pubRel 1 ∈ core.pending ∧
        .pubRel 2 ∉ core.pending) = true := by
    decide
  cases hcore : ((new default markedSession default).run staleRun).1.loop.core? with
  | none =>
      rw [hcore] at hsent
      cases hsent
  | some core =>
      rw [hcore] at hsent
      obtain ⟨core', hcore', hmessages, -⟩ := released_receipted default default staleRun none
        inherited_markedSession rfl hcore (by decide)
      rw [hcore'] at hnext
      obtain ⟨hreleased, hrel, hnone⟩ := of_decide_eq_true hnext
      refine ⟨core', hcore', hreleased, hrel, ?_⟩
      rcases hmessages 2 _ (of_decide_eq_true hsent) with ⟨-, hrel', -⟩ | ⟨-, hagain⟩
      · exact absurd hrel' hnone
      · exact hagain

/-- No PUBREC came after the first message was written, and yet it is not written
again: it stays in the session, and PUBREL is queued for it. -/
theorem receipt_missing_staleRun :
    (default : Settings).cleanSession = false ∧
      Event.wrote (.publish ⟨"b", [2], .exactlyOnce, false, false, 1⟩) none
        ∉ ((new default .empty default).run crossingRun).2 ∧
      Event.wrote (.publish ⟨"b", [2], .exactlyOnce, false, false, 1⟩) none
        ∈ ((new default markedSession default).run staleRun).2 ∧
      Event.received (.pubRec 1) ∉ ((new default markedSession default).run staleRun).2 ∧
      ((new default markedSession default).run staleRun).1.establishes (.connect none) = true ∧
      (((new default markedSession default).run staleRun).1.connect none).1.loop.core?.any
        (fun core =>
          ⟨⟨.publish, 1⟩, .publish ⟨"b", [2], .exactlyOnce, false, false, 1⟩⟩
              ∈ core.session.sent ∧
            .pubRel 1 ∈ core.pending ∧
            .publish ⟨"b", [2], .exactlyOnce, false, true, 1⟩ ∉ core.pending) = true := by
  decide

end Client

end Mqtt
