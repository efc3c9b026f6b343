import Mqtt.Proofs.Client.Ledger
import Mqtt.Proofs.Client.Runs

/-!
# `Mqtt.Proofs.Client.Delivery`: a delivery is completed by an answer to it

The client tells that a message was delivered when a PUBACK or a PUBCOMP
comes under the identifier of the message, and the message was written
before. It does not look at the level of the message, nor at whether a
PUBREC came before the PUBCOMP. No other packet takes a message that was
written out of the session.

None of this needs identifiers to be distinct, because the session never
holds two exchanges under one key.

* `Core.sent_move`, `Core.completed_move`: what a move adds to the session was
  just written, and what it completes was in the session.
* `Core.answering_moves`: the invariant (`Core.Answering`) along a chain of moves.
* `Client.deliveries_answered`: what it says of runs.
-/

set_option autoImplicit false

namespace Mqtt

/-- A PUBLISH is acknowledged by PUBACK and by PUBCOMP, at any level. -/
theorem Packet.acknowledges_publish_iff {p : Packet} {m : Message} :
    p.acknowledges (.publish m) = true ↔ p = .pubAck m.packetId ∨ p = .pubComp m.packetId := by
  cases p <;> simp [Packet.acknowledges, eq_comm]

/-- The notice that completes a PUBLISH tells that its message was delivered. -/
theorem Notice.eq_deliveryCompleted {n : Notice} {m : Message}
    (h : n.request? = some (.publish m)) : n = .deliveryCompleted m := by
  cases n <;> cases h
  rfl

namespace Log

/-- `since` is the log since a request was written, the first time or again,
and no request under its key was completed in it. -/
def OutSince (log : List Event) (p : Packet) (since : List Event) : Prop :=
  (∃ earlier q, log = earlier ++ .wrote q none :: since ∧ q.fresh = p.fresh) ∧
    ∀ q ∈ completed since, ExchangeKey.ofPacket? q ≠ ExchangeKey.ofPacket? p

/-- Whether a request that was written has just been acknowledged. -/
def AnsweredOut (log : List Event) (p : Packet) : Prop :=
  ∃ earlier since ack, log = earlier ++ [.received ack] ∧ ack.acknowledges p = true ∧
    OutSince earlier p since

/-- A request stays out while no other under its key is completed. -/
theorem OutSince.append {log since events : List Event} {p : Packet} (h : OutSince log p since)
    (hother : ∀ q ∈ completed events, ExchangeKey.ofPacket? q ≠ ExchangeKey.ofPacket? p) :
    OutSince (log ++ events) p (since ++ events) := by
  obtain ⟨⟨earlier, q, hlog, hfresh⟩, hsince⟩ := h
  refine ⟨⟨earlier, q, ?_, hfresh⟩, ?_⟩
  · rw [hlog, List.append_assoc, List.cons_append]
  · intro q' hq'
    rw [completed_append, List.mem_append] at hq'
    exact hq'.elim (hsince q') (hother q')

end Log

namespace Core

/-- What every exchange of the session, and every completed request, has
behind it in the log. -/
structure Answering (log : List Event) (core : Core) : Prop where
  wellFormed : core.session.WellFormed
  out : ∀ e ∈ core.session.sent, ∃ since, Log.OutSince log e.packet since
  answered : Log.Always (fun before e => ∀ p, e.completed? = some p → Log.AnsweredOut before p) log

/-- What is in the session after a move was there before, under another key
than what the move completes, or the move wrote it. -/
theorem sent_move {connecting : Bool} {core core' : Core} {events : List Event}
    (h : core.session.WellFormed) (hmove : Move connecting core events core') :
    ∀ e ∈ core'.session.sent,
      (e ∈ core.session.sent ∧ ∀ q ∈ Log.completed events, ExchangeKey.ofPacket? q ≠ some e.key) ∨
      events = [.wrote e.packet none] := by
  -- All moves but two complete nothing, and add nothing.
  have hstay : Log.completed events = [] → (∀ e ∈ core'.session.sent, e ∈ core.session.sent) →
      ∀ e ∈ core'.session.sent, (e ∈ core.session.sent ∧
        ∀ q ∈ Log.completed events, ExchangeKey.ofPacket? q ≠ some e.key) ∨
        events = [.wrote e.packet none] := by
    intro hnone hsub e he
    rw [hnone]
    exact Or.inl ⟨hsub e he, by simp⟩
  cases hmove.effect h with
  | aside hbooks haside =>
      refine hstay (Log.of_isAside haside).2.2.1 fun e he => ?_
      rw [show core'.session = core.session from congrArg Books.session hbooks] at he
      exact he
  | ask _ r => exact hstay rfl fun _ he => he
  | queue hinbox => exact hstay rfl fun _ he => he
  | track hpending =>
      intro e he
      rcases List.mem_append.mp he with he | he
      · exact Or.inl ⟨he, by simp [Log.completed, Event.completed?]⟩
      · rw [List.mem_singleton.mp he]
        exact Or.inr rfl
  | drop hpending => exact hstay rfl fun _ he => he
  | refuse hpending => exact hstay rfl fun _ he => he
  | route p handler hrouting =>
      rw [Log.completed_received] at hstay ⊢
      cases hrouting with
      | answer answers hanswers hsent hpending hevents hnotice =>
          rw [Option.bind_eq_none_iff.mpr hnotice] at hstay ⊢
          exact hstay rfl fun e he => by rw [hsent] at he; exact he
      | complete front back e' n hfound hsent hpending hevents hnotice hrequest hacknowledges =>
          -- What is left has another key than the one that was cut out.
          rw [hnotice, Option.bind_some, hrequest, Option.toList_some]
          intro e he
          rw [hsent] at he
          refine Or.inl ⟨(sublist_cut hfound).subset he, ?_⟩
          intro q hq hkey
          rw [List.mem_singleton.mp hq, h.sent_keyed e' (mem_cut hfound)] at hkey
          have hfree := Exchange.key_not_mem_cut h.sent_nodup hfound
          rw [Option.some.inj hkey] at hfree
          exact hfree (List.mem_map_of_mem he)
      | release front back e' packetId hfound hkey hsent hpending hevents hnotice =>
          rw [hnotice] at hstay ⊢
          refine hstay rfl fun e he => ?_
          rw [hsent, List.append_assoc] at he
          rw [hfound]
          exact ((List.perm_append_singleton e' back).append_left front).mem_iff.mp he
  | forget now =>
      intro e he
      cases he
  | redeliver now => exact hstay rfl fun _ he => List.filter_sublist.subset he

/-- What a move completes was in the session, and the packet before
acknowledges it. -/
theorem completed_move {connecting : Bool} {core core' : Core} {events : List Event}
    (h : core.session.WellFormed) (hmove : Move connecting core events core') :
    Log.completed events = [] ∨ ∃ ack p n handler,
      events = [.received ack, .notified n handler] ∧ n.request? = some p ∧
        ack.acknowledges p = true ∧ p ∈ core.session.sent.map Exchange.packet := by
  cases hmove.effect h with
  | aside hbooks haside => exact Or.inl (Log.of_isAside haside).2.2.1
  | route p handler hrouting =>
      rw [Log.completed_received]
      cases hrouting with
      | answer answers hanswers hsent hpending hevents hnotice =>
          exact Or.inl (by rw [Option.bind_eq_none_iff.mpr hnotice]; rfl)
      | complete front back e n hfound hsent hpending hevents hnotice hrequest hacknowledges =>
          rw [hnotice]
          exact Or.inr ⟨p, e.packet, n, handler, rfl, hrequest, hacknowledges,
            List.mem_map_of_mem (mem_cut hfound)⟩
      | release front back e packetId hfound hkey hsent hpending hevents hnotice =>
          exact Or.inl (by rw [hnotice]; rfl)
  | _ => exact Or.inl rfl

/-- Every move keeps the invariant. -/
theorem answering_move {connecting : Bool} {log events : List Event} {core core' : Core}
    (h : Answering log core) (hmove : Move connecting core events core') :
    Answering (log ++ events) core' := by
  constructor
  · exact wellFormed_move h.wellFormed hmove
  · intro e he
    rcases sent_move h.wellFormed hmove e he with ⟨hbefore, hother⟩ | hevents
    · obtain ⟨since, hout⟩ := h.out e hbefore
      refine ⟨since ++ events, hout.append ?_⟩
      rw [h.wellFormed.sent_keyed e hbefore]
      exact hother
    · rw [hevents]
      exact ⟨[], ⟨log, e.packet, rfl, rfl⟩, by simp [Log.completed]⟩
  · refine Log.always_append_iff.mpr ⟨h.answered, ?_⟩
    refine Log.always_completed ((completed_move h.wellFormed hmove).imp_right ?_)
    rintro ⟨ack, q, n, handler, hevents, hrequest, hack, hq⟩
    obtain ⟨e, he, rfl⟩ := List.mem_map.mp hq
    obtain ⟨since, hout⟩ := h.out e he
    exact ⟨ack, e.packet, n, handler, hevents, hrequest, log, since, ack, rfl, hack, hout⟩

/-- Chains of moves keep the invariant. -/
theorem answering_moves {connecting : Bool} {start core : Core} {log : List Event}
    (h : Answering [] start) (hmoves : Moves connecting start log core) : Answering log core := by
  induction hmoves with
  | refl => exact h
  | snoc _ hmove ih => exact answering_move ih hmove

/-- An empty session has nothing behind it. -/
theorem answering_new (settings : Settings) (link : Link) (now : Nat) :
    Answering [] (new settings .empty link now) where
  wellFormed := Session.wellFormed_empty
  out := by simp [new, Session.empty]
  answered := Log.always_nil _

end Core

namespace Client

/-- In every run that starts with an empty session, a message is told to be
delivered only when a PUBACK or a PUBCOMP with its identifier has just come
in, and the message was written before, with no delivery under its
identifier in between. No other packet takes a message out of the session. -/
theorem deliveries_answered (settings : Settings) (link : Link) (as : List Action) :
    (∀ before m handler after,
      ((new settings .empty link).run as).2
          = before ++ .notified (.deliveryCompleted m) handler :: after →
        ∃ earlier since ack, before = earlier ++ [.received ack] ∧
          (ack = .pubAck m.packetId ∨ ack = .pubComp m.packetId) ∧
          Log.OutSince earlier (.publish m) since) ∧
    ∀ core, ((new settings .empty link).run as).1.loop.core? = some core →
      ∀ p key m, ⟨key, .publish m⟩ ∈ core.session.sent →
        ⟨key, .publish m⟩ ∈ (core.route p).core.session.sent ∨
        ((p = .pubAck m.packetId ∨ p = .pubComp m.packetId) ∧
          (core.route p).notice = some (.deliveryCompleted m)) := by
  -- The invariant is about moves of a core; a client that lost its core has the log of the last
  -- one.
  obtain ⟨last, hmoves, hlast⟩ :=
    moves_run (new settings .empty link) as (Core.new settings .empty link 0) rfl
  have hanswering := Core.answering_moves (Core.answering_new settings link 0) hmoves
  constructor
  · intro before m handler after hlog
    obtain ⟨earlier, since, ack, hbefore, hack, hout⟩ :=
      hanswering.answered before _ after hlog (.publish m) rfl
    exact ⟨earlier, since, ack, hbefore, Packet.acknowledges_publish_iff.mp hack, hout⟩
  · intro core hcore p key m hmem
    obtain rfl := hlast core hcore
    refine (Core.route_keeps hanswering.wellFormed p hmem).imp_right ?_
    rintro ⟨hack, n, hnotice, hrequest⟩
    rw [hnotice, Notice.eq_deliveryCompleted hrequest]
    exact ⟨Packet.acknowledges_publish_iff.mp hack, rfl⟩

/-- Two level 2 messages, and one of level 1 between them, are written. -/
def publishingRun : List Action :=
  [.expect [.ok (.connAck false .accepted)], .connect none,
    .request (.publish ⟨"a", [1], .exactlyOnce, false, false, 0⟩),
    .request (.publish ⟨"b", [2], .atLeastOnce, false, false, 0⟩),
    .request (.publish ⟨"c", [3], .exactlyOnce, false, false, 0⟩), .turn]

/-- The first one is answered with PUBACK, the others with PUBCOMP at once. -/
def crossedRun : List Action :=
  publishingRun ++ [.arrive [.ok (.pubAck 1), .ok (.pubComp 2), .ok (.pubComp 3)],
    .turn, .turn, .turn, .turn, .turn]

/-- PUBACK completes the first message, which was written; a PUBREC would have
kept it. -/
theorem deliveries_answered_crossedRun :
    (∃ earlier since ack,
      ((new default .empty default).run crossedRun).2.take 14 = earlier ++ [.received ack] ∧
        (ack = .pubAck 1 ∨ ack = .pubComp 1) ∧
        Log.OutSince earlier (.publish ⟨"a", [1], .exactlyOnce, false, false, 1⟩) since) ∧
    ∃ core, ((new default .empty default).run publishingRun).1.loop.core? = some core ∧
      ⟨⟨.publish, 1⟩, .publish ⟨"a", [1], .exactlyOnce, false, false, 1⟩⟩
        ∈ (core.route (.pubRec 1)).core.session.sent := by
  constructor
  · exact (deliveries_answered default default crossedRun).1 _
      ⟨"a", [1], .exactlyOnce, false, false, 1⟩ none
      (((new default .empty default).run crossedRun).2.drop 15) (by decide)
  · have hsent : ((new default .empty default).run publishingRun).1.loop.core?.any
        (fun core => ⟨⟨.publish, 1⟩, .publish ⟨"a", [1], .exactlyOnce, false, false, 1⟩⟩
          ∈ core.session.sent) = true := by
      decide
    cases hcore : ((new default .empty default).run publishingRun).1.loop.core? with
    | none =>
        rw [hcore] at hsent
        cases hsent
    | some core =>
        rw [hcore] at hsent
        have hkept := (deliveries_answered default default publishingRun).2 core hcore (.pubRec 1)
          _ _ (of_decide_eq_true hsent)
        exact ⟨core, rfl, hkept.resolve_right (by simp)⟩

/-- The answers that the level of a message asks for, the first one first. -/
def answersTo (m : Message) : List Event :=
  match m.qos with
  | .atMostOnce => []
  | .atLeastOnce => [.received (.pubAck m.packetId)]
  | .exactlyOnce => [.received (.pubRec m.packetId), .received (.pubComp m.packetId)]

/-- All three messages are told to be delivered, and none of them got the
answers that its level asks for. -/
theorem deliveries_crossed :
    (.notified (.deliveryCompleted ⟨"a", [1], .exactlyOnce, false, false, 1⟩) none
        ∈ ((new default .empty default).run crossedRun).2 ∧
      ¬ (answersTo ⟨"a", [1], .exactlyOnce, false, false, 1⟩).Sublist
        ((new default .empty default).run crossedRun).2) ∧
    (.notified (.deliveryCompleted ⟨"b", [2], .atLeastOnce, false, false, 2⟩) none
        ∈ ((new default .empty default).run crossedRun).2 ∧
      ¬ (answersTo ⟨"b", [2], .atLeastOnce, false, false, 2⟩).Sublist
        ((new default .empty default).run crossedRun).2) ∧
    .notified (.deliveryCompleted ⟨"c", [3], .exactlyOnce, false, false, 3⟩) none
        ∈ ((new default .empty default).run crossedRun).2 ∧
      ¬ (answersTo ⟨"c", [3], .exactlyOnce, false, false, 3⟩).Sublist
        ((new default .empty default).run crossedRun).2 := by
  decide

end Client

end Mqtt
