import Mathlib.Data.List.DropRight
import Mathlib.Data.List.Nodup
import Mqtt.Proofs.Client.Ledger
import Mqtt.Proofs.Client.Runs

/-!
# `Mqtt.Proofs.Client.Release`: what an application is told of incoming messages

A level 2 message is held when its PUBLISH comes and given out when its
PUBREL comes, once. `Log.held` reads off a log which message is held under
an identifier: the first one that came since the identifier was released
last, or the session was forgotten. `Log.due` is what the application has to
be told of a packet, given the log before it.

* `Client.messages_told`: in every run, the application is told of every
  packet what is due.
-/

set_option autoImplicit false

namespace Mqtt

namespace Event

/-- The message that an event gives out. -/
def message? : Event → Option Message
  | .notified (.messageReceived m) _ => some m
  | _ => none

/-- Whether a packet came in. -/
def isReceived : Event → Bool
  | .received _ => true
  | _ => false

/-- The level 2 message that came in under an identifier. -/
def holds? (i : UInt16) : Event → Option Message
  | .received (.publish m) => if m.qos = .exactlyOnce ∧ m.packetId = i then some m else none
  | _ => none

/-- Whether no message is held under an identifier after an event: its
PUBREL came in, or a clean connection was made. -/
def releases (i : UInt16) : Event → Bool
  | .received (.pubRel j) => j = i
  | .established (some _) => true
  | _ => false

/-- Whether an event has nothing to do with incoming messages. -/
def isQuiet : Event → Bool
  | .received _ | .established (some _) | .notified (.messageReceived _) _ => false
  | _ => true

/-- What is aside is quiet. -/
theorem isQuiet_of_isAside {e : Event} (h : e.isAside = true) : e.isQuiet = true := by
  cases e with
  | notified n handler => cases n <;> first | rfl | cases h
  | _ => first | rfl | cases h

/-- A quiet event brings nothing, gives nothing out, and neither holds nor releases a
message. -/
theorem of_isQuiet {e : Event} (h : e.isQuiet = true) (i : UInt16) :
    e.isReceived = false ∧ e.message? = none ∧ e.releases i = false ∧ e.holds? i = none := by
  cases e with
  | notified n handler =>
      cases n <;> first | exact ⟨rfl, rfl, rfl, rfl⟩ | cases h
  | established s =>
      cases s with
      | none => exact ⟨rfl, rfl, rfl, rfl⟩
      | some s => cases h
  | _ => first | exact ⟨rfl, rfl, rfl, rfl⟩ | cases h

end Event

namespace Log

/-- The messages that are given out before the next packet comes in. -/
def told (log : List Event) : List Message :=
  (log.takeWhile fun e => !e.isReceived).filterMap Event.message?

/-- The message that is held under an identifier: the first one that came in
since the identifier was released. -/
def held (i : UInt16) (log : List Event) : Option Message :=
  (log.rtakeWhile fun e => !e.releases i).findSome? (Event.holds? i)

/-- The messages to give out when a packet comes in after `before`: that of
a PUBLISH, unless it is a level 2 message, and the one that a PUBREL
releases. -/
def due (before : List Event) : Packet → List Message
  | .publish m => if m.qos = .exactlyOnce then [] else [m]
  | .pubRel i => (held i before).toList
  | _ => []

/-- A release leaves nothing held; otherwise the earliest message stays. -/
theorem held_snoc (i : UInt16) (log : List Event) (e : Event) :
    held i (log ++ [e]) = if e.releases i then none else (held i log).or (e.holds? i) := by
  rw [held, List.rtakeWhile_concat]
  cases e.releases i with
  | true => rfl
  | false => exact List.findSome?_append.trans (by rw [List.findSome?_singleton]; rfl)

/-- Events that hold nothing and release nothing change nothing that is held. -/
theorem held_append {events : List Event} {i : UInt16}
    (h : ∀ e ∈ events, e.releases i = false ∧ e.holds? i = none) (log : List Event) :
    held i (log ++ events) = held i log := by
  induction events generalizing log with
  | nil => rw [List.append_nil]
  | cons e events ih =>
      obtain ⟨hreleases, hholds⟩ := h e List.mem_cons_self
      rw [List.append_cons, ih (fun e' he' => h e' (List.mem_cons_of_mem e he')), held_snoc,
        hreleases, hholds, if_neg Bool.false_ne_true, Option.or_none]

/-- What is told stops where a packet comes in. -/
theorem told_cons (e : Event) (log : List Event) :
    told (e :: log) = if e.isReceived then [] else e.message?.toList ++ told log := by
  rw [told, List.takeWhile_cons]
  cases e.isReceived with
  | true => rfl
  | false =>
      show (e :: log.takeWhile _).filterMap Event.message? = _ ++ told log
      cases hmessage : e.message? with
      | none => exact List.filterMap_cons_none hmessage
      | some m => exact List.filterMap_cons_some hmessage

/-- Once a packet came in, what is told before it is settled. -/
theorem told_append_received (log : List Event) (p : Packet) (later : List Event) :
    told (log ++ .received p :: later) = told log := by
  -- Up to the first packet that came in both logs are the same.
  induction log with
  | nil => rfl
  | cons e log ih =>
      rw [List.cons_append, told_cons, told_cons, ih]

/-- Events that bring no packet and give out no message tell nothing. -/
theorem told_append {events : List Event}
    (h : ∀ e ∈ events, e.isReceived = false ∧ e.message? = none) (log : List Event) :
    told (log ++ events) = told log := by
  induction log with
  | nil =>
      apply List.filterMap_eq_nil_iff.mpr
      intro e he
      exact (h e (List.takeWhile_subset _ he)).2
  | cons e log ih =>
      rw [List.cons_append, told_cons, told_cons, ih]

/-- Without another packet, all that is given out is told. -/
theorem told_of_not_isReceived {events : List Event} (h : ∀ e ∈ events, e.isReceived = false) :
    told events = events.filterMap Event.message? := by
  rw [told, List.takeWhile_eq_self_iff.mpr]
  intro e he
  rw [h e he]
  rfl

/-- Whether the application was told of every packet of a log what was due,
and nothing else. -/
def Faithful (log : List Event) : Prop :=
  told log = [] ∧
    ∀ before p after, log = before ++ .received p :: after → told after = due before p

/-- Events that bring no packet and give out no message keep a log faithful. -/
theorem Faithful.append {log events : List Event} (h : Faithful log)
    (hsilent : ∀ e ∈ events, e.isReceived = false ∧ e.message? = none) :
    Faithful (log ++ events) := by
  refine ⟨(told_append hsilent log).trans h.1, ?_⟩
  intro before p after hsplit
  -- The packet is in the log before, for the new events bring none.
  rcases split_append hsplit with ⟨rest, hlog, rfl⟩ | ⟨rest, -, hevents⟩
  · rw [told_append hsilent]
    exact h.2 before p rest hlog
  · cases (hsilent (.received p) (by rw [hevents]; simp)).1

/-- A packet of which the application is told what is due keeps a log faithful. -/
theorem Faithful.append_received {log events : List Event} {p : Packet} (h : Faithful log)
    (hreceived : ∀ e ∈ events, e.isReceived = false)
    (htold : events.filterMap Event.message? = due log p) :
    Faithful (log ++ .received p :: events) := by
  refine ⟨(told_append_received log p events).trans h.1, ?_⟩
  intro before q after hsplit
  -- It is the new packet, or one in the log before, and then the new packet
  -- is where the next one came in.
  rcases split_append hsplit with ⟨rest, hlog, rfl⟩ | ⟨rest, hbefore, hevents⟩
  · rw [told_append_received]
    exact h.2 before q rest hlog
  · cases rest with
    | nil =>
        obtain ⟨hp, rfl⟩ := List.cons.inj hevents
        obtain rfl : p = q := Event.received.inj hp
        rw [List.append_nil] at hbefore
        rw [hbefore, ← htold]
        exact told_of_not_isReceived hreceived
    | cons e rest =>
        obtain ⟨rfl, rfl⟩ := List.cons.inj hevents
        cases hreceived (.received q) (by simp)

end Log

namespace Session

/-- The message that is held under an identifier is that of the tracked PUBLISH. -/
theorem takeReceivedPublish_eq_some_iff {s : Session} (h : s.WellFormed) {i : UInt16}
    {m : Message} : (s.takeReceivedPublish i).1 = some m ↔
      (⟨⟨.publish, i⟩, .publish m⟩ : Exchange) ∈ s.received := by
  rcases takeReceivedPublish_cases h i with ⟨front, m', back, hreceived, htake⟩ | ⟨hnone, htake⟩
  · have hmem : (⟨⟨.publish, i⟩, .publish m'⟩ : Exchange) ∈ s.received := mem_cut hreceived
    rw [htake]
    constructor
    · intro heq
      obtain rfl : m' = m := Option.some.inj heq
      exact hmem
    · intro hmem'
      -- No other exchange has this key.
      have heq := List.inj_on_of_nodup_map h.received_nodup hmem hmem' rfl
      exact congrArg some (Packet.publish.inj (Exchange.mk.inj heq).2)
  · rw [htake]
    refine ⟨by simp, ?_⟩
    intro hmem
    exact absurd (List.mem_map_of_mem hmem) hnone

/-- What is held depends on the tracked PUBLISH packets only. -/
theorem takeReceivedPublish_congr {s t : Session} (hs : s.WellFormed) (ht : t.WellFormed)
    (i : UInt16) (h : ∀ m, (⟨⟨.publish, i⟩, .publish m⟩ : Exchange) ∈ s.received ↔
      (⟨⟨.publish, i⟩, .publish m⟩ : Exchange) ∈ t.received) :
    (s.takeReceivedPublish i).1 = (t.takeReceivedPublish i).1 := by
  apply Option.ext
  intro m
  rw [takeReceivedPublish_eq_some_iff hs, takeReceivedPublish_eq_some_iff ht]
  exact h m

end Session

namespace Core

/-- Opening an exchange puts it at the end, unless it is open. -/
theorem trackReceived_received (core : Core) (p : Packet) :
    (∃ key, ExchangeKey.ofPacket? p = some key ∧ key ∉ Exchange.keys core.session.received ∧
      (core.trackReceived p).session.received = core.session.received ++ [⟨key, p⟩]) ∨
    ((p.opensExchange = true → ∀ key, ExchangeKey.ofPacket? p = some key →
        key ∈ Exchange.keys core.session.received) ∧
      (core.trackReceived p).session.received = core.session.received) := by
  unfold trackReceived
  rcases core.session.trackReceived_cases p with
    ⟨-, key, hkey, hfree, htrack⟩ | ⟨hopen, reason, htrack⟩
  · rw [htrack]
    exact Or.inl ⟨key, hkey, hfree, rfl⟩
  · rw [htrack]
    exact Or.inr ⟨hopen, rfl⟩

/-- Routing a level 2 PUBLISH holds its message, unless one is held. -/
theorem held_route_publish {core : Core} (h : core.session.WellFormed) {m : Message}
    (hqos : m.qos = .exactlyOnce) (i : UInt16) :
    ((core.route (.publish m)).core.session.takeReceivedPublish i).1
      = (core.session.takeReceivedPublish i).1.or (if m.packetId = i then some m else none) := by
  have hwell := wellFormed_route h (.publish m)
  have hroute : (core.route (.publish m)).core.session
      = (core.trackReceived (.publish m)).session := by
    simp only [route, routePublish, hqos]
    rfl
  have hkey : ExchangeKey.ofPacket? (.publish m) = some ⟨.publish, m.packetId⟩ :=
    ExchangeKey.ofPacket?_eq_some_iff.mpr ⟨rfl, by simp [Packet.packetId?, hqos]⟩
  rw [hroute] at hwell ⊢
  rcases trackReceived_received core (.publish m) with
    ⟨key, hkey', hfree, hreceived⟩ | ⟨hopen, hreceived⟩
  · obtain rfl := Option.some.inj (hkey.symm.trans hkey')
    -- Its key was free, so no message was held.
    by_cases hi : m.packetId = i
    · subst hi
      have hnone : (core.session.takeReceivedPublish m.packetId).1 = none := by
        refine Option.eq_none_iff_forall_not_mem.mpr fun m' hm' => hfree ?_
        exact List.mem_map_of_mem ((Session.takeReceivedPublish_eq_some_iff h).mp hm')
      rw [hnone, if_pos rfl, Option.none_or, Session.takeReceivedPublish_eq_some_iff hwell,
        hreceived]
      exact List.mem_append_right _ (List.mem_singleton.mpr rfl)
    · rw [if_neg hi, Option.or_none]
      apply Session.takeReceivedPublish_congr hwell h i
      intro m'
      rw [hreceived, List.mem_append, List.mem_singleton]
      refine or_iff_left fun heq => hi ?_
      exact (ExchangeKey.mk.inj (Exchange.mk.inj heq).1).2.symm
  · rw [Session.takeReceivedPublish_congr hwell h i fun m' => by rw [hreceived]]
    by_cases hi : m.packetId = i
    · -- The earlier message stays.
      subst hi
      have hopens : (Packet.publish m).opensExchange = true := decide_eq_true hqos
      rcases Session.takeReceivedPublish_cases h m.packetId with
        ⟨front, m', back, -, htake⟩ | ⟨hnone, -⟩
      · rw [htake]
        rfl
      · exact absurd (hopen hopens _ hkey) hnone
    · rw [if_neg hi, Option.or_none]

/-- Routing a PUBREC holds nothing and releases nothing. -/
theorem held_route_pubRec {core : Core} (h : core.session.WellFormed) (j i : UInt16) :
    ((core.route (.pubRec j)).core.session.takeReceivedPublish i).1
      = (core.session.takeReceivedPublish i).1 := by
  apply Session.takeReceivedPublish_congr (wellFormed_route h (.pubRec j)) h i
  intro m
  simp only [route, routePubRec]
  rcases Session.takeSentPublish_cases h j with ⟨front, m', back, -, htake⟩ | ⟨-, htake⟩
  · rw [htake]
    -- The PUBLISH is tracked as sent, and the PUBREC has a key of another kind.
    have hsent : ∀ core' : Core,
        (core'.trackSent (.publish m')).1.session.received = core'.session.received := by
      intro core'
      unfold trackSent
      rcases core'.session.trackSent_cases (.publish m') with
        ⟨-, key, -, -, hok⟩ | ⟨-, reason, herr⟩
      · rw [hok]
      · rw [herr]
    dsimp only
    rcases trackReceived_received _ (.pubRec j) with
      ⟨key, hkey, -, hreceived⟩ | ⟨-, hreceived⟩
    · show _ ∈ (Core.trackReceived _ _).session.received ↔ _
      rw [hreceived, hsent, List.mem_append, List.mem_singleton]
      apply or_iff_left
      intro heq
      cases (Exchange.mk.inj heq).2
    · show _ ∈ (Core.trackReceived _ _).session.received ↔ _
      rw [hreceived, hsent]
  · rw [htake]

/-- Routing a PUBREL releases the message under its identifier. -/
theorem held_route_pubRel {core : Core} (h : core.session.WellFormed) (j i : UInt16) :
    ((core.route (.pubRel j)).core.session.takeReceivedPublish i).1
      = if j = i then none else (core.session.takeReceivedPublish i).1 := by
  have hwell := wellFormed_route h (.pubRel j)
  have hroute : (core.route (.pubRel j)).core.session
      = (core.session.takeReceivedPublish j).2 := rfl
  rw [hroute] at hwell ⊢
  rcases Session.takeReceivedPublish_cases h j with
    ⟨front, m, back, hreceived, htake⟩ | ⟨hnone, htake⟩
  · rw [htake] at hwell ⊢
    split
    · next hi =>
        subst hi
        have hfree := Exchange.key_not_mem_cut h.received_nodup hreceived
        refine Option.eq_none_iff_forall_not_mem.mpr fun m' hm' => hfree ?_
        exact List.mem_map.mpr
          ⟨_, (Session.takeReceivedPublish_eq_some_iff hwell).mp hm', rfl⟩
    · next hi =>
        apply Session.takeReceivedPublish_congr hwell h i
        intro m'
        rw [hreceived, List.mem_append, List.mem_append, List.mem_cons]
        have hne : (⟨⟨.publish, i⟩, .publish m'⟩ : Exchange) ≠ ⟨⟨.publish, j⟩, .publish m⟩ :=
          fun heq => hi (ExchangeKey.mk.inj (Exchange.mk.inj heq).1).2.symm
        rw [or_iff_right hne]
  · rw [htake]
    split
    · next hi =>
        subst hi
        rw [htake]
    · rfl

/-- Routing a PUBCOMP holds nothing and releases nothing. -/
theorem held_route_pubComp {core : Core} (h : core.session.WellFormed) (j i : UInt16) :
    ((core.route (.pubComp j)).core.session.takeReceivedPublish i).1
      = (core.session.takeReceivedPublish i).1 := by
  apply Session.takeReceivedPublish_congr (wellFormed_route h (.pubComp j)) h i
  intro m
  have hsent : ∀ s : Session, s.WellFormed → (s.takeSentPublish j).2.received = s.received := by
    intro s hs
    rcases Session.takeSentPublish_cases hs j with ⟨front, m', back, -, htake⟩ | ⟨-, htake⟩ <;>
      rw [htake]
  have hmark := Session.wellFormed_takeReceivedPubRec h j
  show _ ∈ ((core.session.takeReceivedPubRec j).2.takeSentPublish j).2.received ↔ _
  rw [hsent _ hmark]
  rcases Session.takeReceivedPubRec_cases h j with
    ⟨front, e, back, hreceived, hkey, htake⟩ | ⟨-, htake⟩
  · rw [htake, hreceived, List.mem_append, List.mem_append, List.mem_cons]
    -- What was taken is a PUBREC, not the PUBLISH.
    have hne : (⟨⟨.publish, i⟩, .publish m⟩ : Exchange) ≠ e := by
      rintro rfl
      cases (ExchangeKey.mk.inj hkey).1
    rw [or_iff_right hne]
  · rw [htake]

/-- What is held after a packet was routed follows from what was held before. -/
theorem held_route {core : Core} (h : core.session.WellFormed) (p : Packet) (i : UInt16) :
    ((core.route p).core.session.takeReceivedPublish i).1
      = if (Event.received p).releases i then none
        else (core.session.takeReceivedPublish i).1.or ((Event.received p).holds? i) := by
  -- Most packets leave the receiving side as it is.
  have hkept : ∀ s : Session, s.received = core.session.received → s.WellFormed →
      (s.takeReceivedPublish i).1 = (core.session.takeReceivedPublish i).1.or none := by
    intro s hs hwell
    rw [Option.or_none]
    exact Session.takeReceivedPublish_congr hwell h i fun m => by rw [hs]
  have hwell := wellFormed_route h p
  cases p with
  | publish m =>
      by_cases hqos : m.qos = .exactlyOnce
      · rw [held_route_publish h hqos i]
        simp [Event.releases, Event.holds?, hqos]
      · have hsame : (core.route (.publish m)).core.session = core.session := by
          simp only [route, routePublish]
          split <;> first | rfl | contradiction
        rw [hsame]
        simp [Event.releases, Event.holds?, hqos]
  | pubRec j =>
      rw [held_route_pubRec h j i]
      exact (Option.or_none).symm
  | pubRel j =>
      rw [held_route_pubRel h j i]
      by_cases hi : j = i <;> simp [Event.releases, Event.holds?, hi]
  | pubComp j =>
      rw [held_route_pubComp h j i]
      exact (Option.or_none).symm
  | pubAck j =>
      refine hkept _ ?_ hwell
      rcases Session.takeSentPublish_cases h j with ⟨front, m, back, -, htake⟩ | ⟨-, htake⟩ <;>
        simp only [route, htake]
  | subAck j granted =>
      refine hkept _ ?_ hwell
      rcases Session.takeSentSubscribe_cases h j with ⟨front, m, back, -, htake⟩ | ⟨-, htake⟩ <;>
        simp only [route, htake]
  | unsubAck j =>
      refine hkept _ ?_ hwell
      rcases Session.takeSentUnsubscribe_cases h j with ⟨front, m, back, -, htake⟩ | ⟨-, htake⟩ <;>
        simp only [route, htake]
  | _ => exact hkept _ rfl hwell

/-- A notice of another kind gives out no message. -/
theorem message?_of_map {α : Type} (found : Option α) (f : α → Notice) (handler : Option Handler)
    (h : ∀ a, (Event.notified (f a) handler).message? = none) :
    ((found.map f).toList.map (Event.notified · handler)).filterMap Event.message? = [] := by
  cases found with
  | none => rfl
  | some a => exact List.filterMap_cons_none (h a)

/-- The notice of a packet gives out what is due. -/
theorem due_route {core : Core} {log : List Event}
    (hheld : ∀ i, (core.session.takeReceivedPublish i).1 = Log.held i log) (p : Packet)
    (handler : Option Handler) :
    ((core.route p).notice.toList.map (Event.notified · handler)).filterMap Event.message?
      = Log.due log p := by
  cases p with
  | publish m =>
      simp only [route, routePublish]
      cases hqos : m.qos <;> simp [Event.message?, Log.due, hqos]
  | pubRel i =>
      show (((core.session.takeReceivedPublish i).1.map Notice.messageReceived).toList.map
        (Event.notified · handler)).filterMap Event.message? = (Log.held i log).toList
      rw [hheld]
      cases Log.held i log <;> rfl
  | pubRec i =>
      simp only [route, routePubRec]
      split <;> rfl
  | pubAck i => exact message?_of_map _ Notice.deliveryCompleted handler fun _ => rfl
  | pubComp i => exact message?_of_map _ Notice.deliveryCompleted handler fun _ => rfl
  | subAck i granted =>
      exact message?_of_map _ (Notice.subscribeCompleted · granted) handler fun _ => rfl
  | unsubAck i => exact message?_of_map _ Notice.unsubscribeCompleted handler fun _ => rfl
  | _ => rfl

/-- What a core holds is what its log says, and the application was told of
every packet what was due. -/
structure Holding (log : List Event) (core : Core) : Prop where
  wellFormed : core.session.WellFormed
  held : ∀ i, (core.session.takeReceivedPublish i).1 = Log.held i log
  faithful : Log.Faithful log

/-- Moves that have nothing to do with incoming messages. -/
theorem Holding.append_of_isQuiet {log events : List Event} {core core' : Core}
    (h : Holding log core) (hwell : core'.session.WellFormed)
    (hreceived : core'.session.received = core.session.received)
    (hquiet : ∀ e ∈ events, e.isQuiet = true) : Holding (log ++ events) core' where
  wellFormed := hwell
  held := by
    intro i
    rw [Log.held_append fun e he => (Event.of_isQuiet (hquiet e he) i).2.2, ← h.held i]
    exact Session.takeReceivedPublish_congr hwell h.wellFormed i fun m => by rw [hreceived]
  faithful := by
    apply h.faithful.append
    intro e he
    obtain ⟨hreceived, hmessage, -⟩ := Event.of_isQuiet (hquiet e he) 0
    exact ⟨hreceived, hmessage⟩

/-- Routing a packet keeps the invariant. -/
theorem holding_route {log : List Event} {core : Core} (h : Holding log core) (p : Packet)
    (handler : Option Handler) :
    Holding (log ++ (.received p :: (core.route p).notice.toList.map (.notified · handler)))
      (core.route p).core := by
  have hreceived : ∀ e ∈ (core.route p).notice.toList.map (Event.notified · handler),
      e.isReceived = false := by
    intro e he
    obtain ⟨n, -, rfl⟩ := List.mem_map.mp he
    rfl
  constructor
  · exact wellFormed_route h.wellFormed p
  · intro i
    rw [held_route h.wellFormed p i, h.held i, ← Log.held_snoc]
    -- The notice of the packet is of no consequence for what is held.
    refine Eq.trans (Log.held_append ?_ _).symm (congrArg _ (List.append_assoc log _ _))
    intro e he
    obtain ⟨n, -, rfl⟩ := List.mem_map.mp he
    exact ⟨rfl, rfl⟩
  · exact h.faithful.append_received hreceived (due_route h.held p handler)

/-- Every move keeps the invariant. -/
theorem holding_move {connecting : Bool} {log events : List Event} {core core' : Core}
    (h : Holding log core) (hmove : Move connecting core events core') :
    Holding (log ++ events) core' := by
  have hwell := wellFormed_move h.wellFormed hmove
  cases hmove.effect h.wellFormed with
  | aside hbooks haside =>
      refine h.append_of_isQuiet hwell ?_ fun e he => Event.isQuiet_of_isAside (haside e he)
      rw [show core'.session = core.session from congrArg Books.session hbooks]
  | route p handler hrouting => exact holding_route h p handler
  | forget now =>
      -- The session is empty, and the event says that it was forgotten.
      constructor
      · exact hwell
      · intro i
        rw [Log.held_snoc]
        rfl
      · exact h.faithful.append (by simp [Event.isReceived, Event.message?])
  | _ => exact h.append_of_isQuiet hwell rfl (by simp [Event.isQuiet])

/-- Chains of moves keep the invariant. -/
theorem holding_moves {connecting : Bool} {start core : Core} {log : List Event}
    (h : Holding [] start) (hmoves : Moves connecting start log core) : Holding log core := by
  induction hmoves with
  | refl => exact h
  | snoc _ hmove ih => exact holding_move ih hmove

end Core

namespace Client

/-- In every run that starts with an empty session, the application is told
of no message before a packet comes in, and of every packet what is due. -/
theorem messages_told (settings : Settings) (link : Link) (as : List Action) :
    Log.told ((new settings .empty link).run as).2 = [] ∧
      ∀ before p after, ((new settings .empty link).run as).2 = before ++ .received p :: after →
        Log.told after = Log.due before p := by
  obtain ⟨core, hmoves, -⟩ :=
    moves_run (new settings .empty link) as (Core.new settings .empty link 0) rfl
  have hstart : Core.Holding [] (Core.new settings .empty link 0) :=
    ⟨Session.wellFormed_empty, fun _ => rfl, rfl, fun before p after h => by
      cases before <;> cases h⟩
  exact (Core.holding_moves hstart hmoves).faithful

/-- A level 2 message comes, and after a new connection a second one under the
same identifier, which the client also uses for a message of its own. Its
PUBREL comes twice, and one under another identifier before it. -/
def repeatedRun : List Action :=
  [.expect [.ok (.connAck false .accepted),
      .ok (.publish ⟨"a", [1], .exactlyOnce, false, false, 1⟩), .ok (.pubRec 1)],
    .connect none, .request (.publish ⟨"a", [9], .exactlyOnce, false, false, 0⟩),
    .turn, .turn, .turn, .turn, .disconnect true,
    .expect [.ok (.connAck true .accepted),
      .ok (.publish ⟨"a", [2], .exactlyOnce, false, true, 1⟩), .ok (.pubRel 2),
      .ok (.pubComp 1), .ok (.pubRel 1), .ok (.pubRel 1)],
    .connect none, .turn, .turn, .turn, .turn, .turn, .turn, .turn, .turn, .turn, .turn]

/-- The first message is given out once. -/
theorem messages_told_repeatedRun :
    Log.told (((new default .empty default).run repeatedRun).2.drop 26)
      = [⟨"a", [1], .exactlyOnce, false, false, 1⟩] ∧
    Log.told (((new default .empty default).run repeatedRun).2.drop 29) = [] := by
  have htold := (messages_told default default repeatedRun).2
  constructor
  · exact (htold (((new default .empty default).run repeatedRun).2.take 25) (.pubRel 1) _
      (by decide)).trans (by decide)
  · exact (htold (((new default .empty default).run repeatedRun).2.take 28) (.pubRel 1) _
      (by decide)).trans (by decide)

end Client

end Mqtt
