import Mathlib.Data.List.Basic
import Mqtt.Proofs.Client.Roll
import Mqtt.Proofs.Client.Turn
import Mqtt.Proofs.Session.Operations

/-!
# `Mqtt.Proofs.Client.Locality`: a packet touches its own exchange only

What routing a packet does to a session is said in one go by `Session.exchanged`: under
a few keys, all with the identifier of the packet, exchanges are dropped, moved to the
end, or opened. Two facts about it carry all that follows: what stands under other
identifiers stays (`Session.filter_exchanged`), and what becomes of an identifier depends
on nothing else (`Session.only_exchanged`).

* `Core.session_route`: this is what routing does.
* `Core.notice_route`: a notice is about the identifier of the packet too, and so is the
  answer (`Core.route_replies`).
* `Session.exchanged_comm`: packets under different identifiers can be routed in either
  order.
* `Client.routing_local`: what that says of every state that a run reaches.
-/

set_option autoImplicit false

namespace Mqtt

/-- What a notice is about. -/
def Notice.packet? : Notice → Option Packet
  | messageReceived m | deliveryCompleted m => some (.publish m)
  | subscribeCompleted r _ => some (.subscribe r)
  | unsubscribeCompleted r => some (.unsubscribe r)
  | connectionLost _ | disconnected _ => none

namespace Exchange

/-! ### Exchanges by key -/

/-- The exchanges under a key. -/
def under (key : ExchangeKey) (es : List Exchange) : List Exchange :=
  es.filter fun e => e.key = key

/-- The exchanges under all other keys. -/
def drop (key : ExchangeKey) (es : List Exchange) : List Exchange :=
  es.filter fun e => e.key ≠ key

/-- Opens an exchange at the end, unless its key is open. -/
def join (es : List Exchange) (e : Exchange) : List Exchange :=
  if isOpen es e.key then es else es ++ [e]

/-- The exchanges under an identifier. -/
def only (packetId : UInt16) (es : List Exchange) : List Exchange :=
  es.filter fun e => e.key.packetId = packetId

/-- To cut an exchange out is to drop its key. -/
theorem cut_eq_drop {es front back : List Exchange} {e : Exchange} (h : (keys es).Nodup)
    (hes : es = front ++ e :: back) : front ++ back = drop e.key es := by
  have hfree : ∀ e' ∈ front ++ back, e'.key ≠ e.key := fun e' he' heq =>
    key_not_mem_cut h hes (List.mem_map.mpr ⟨e', he', heq⟩)
  rw [drop, hes, List.filter_append, List.filter_cons_of_neg (by simp), ← List.filter_append]
  exact (List.filter_eq_self.mpr fun e' he' => decide_eq_true (hfree e' he')).symm

/-- No other exchange is under the key of one that was cut out. -/
theorem under_of_cut {es front back : List Exchange} {e : Exchange} (h : (keys es).Nodup)
    (hes : es = front ++ e :: back) : under e.key es = [e] := by
  have hfree : ∀ e' ∈ front ++ back, ¬ e'.key = e.key := fun e' he' heq =>
    key_not_mem_cut h hes (List.mem_map.mpr ⟨e', he', heq⟩)
  have hfront : front.filter (fun e' => e'.key = e.key) = [] :=
    List.filter_eq_nil_iff.mpr fun e' he' => by
      simpa using hfree e' (List.mem_append_left _ he')
  have hback : back.filter (fun e' => e'.key = e.key) = [] :=
    List.filter_eq_nil_iff.mpr fun e' he' => by
      simpa using hfree e' (List.mem_append_right _ he')
  rw [under, hes, List.filter_append, List.filter_cons_of_pos (by simp), hfront, hback]
  rfl

/-- There is nothing to drop under a key that is not open. -/
theorem drop_of_not_mem {es : List Exchange} {key : ExchangeKey} (h : key ∉ keys es) :
    drop key es = es :=
  List.filter_eq_self.mpr fun e he => decide_eq_true fun heq =>
    h (List.mem_map.mpr ⟨e, he, heq⟩)

section Filter

variable {P : Exchange → Bool} {key : ExchangeKey}

/-- Where nothing under a key is looked at, dropping it is not seen. -/
theorem filter_drop (hP : ∀ e, P e = true → e.key ≠ key) (es : List Exchange) :
    (drop key es).filter P = es.filter P := by
  rw [drop, List.filter_filter]
  refine List.filter_congr fun e _ => ?_
  cases h : P e with
  | false => rfl
  | true => simp [hP e h]

/-- Where nothing under a key is looked at, nothing of it is seen. -/
theorem filter_under (hP : ∀ e, P e = true → e.key ≠ key) (es : List Exchange) :
    (under key es).filter P = [] := by
  rw [under, List.filter_filter]
  refine List.filter_eq_nil_iff.mpr fun e _ => ?_
  cases h : P e with
  | false => simp
  | true => simp [hP e h]

/-- Where an exchange is not looked at, opening it is not seen. -/
theorem filter_join {e : Exchange} (hP : P e = false) (es : List Exchange) :
    (join es e).filter P = es.filter P := by
  unfold join
  split
  · rfl
  · rw [List.filter_append, List.filter_cons_of_neg (by simp [hP]), List.filter_nil,
      List.append_nil]

end Filter

/-- It is the same to drop a key first, or to look at one identifier first. -/
theorem only_drop (packetId : UInt16) (key : ExchangeKey) (es : List Exchange) :
    only packetId (drop key es) = drop key (only packetId es) :=
  List.filter_comm _ _ _

/-- So it is with what is under a key. -/
theorem only_under (packetId : UInt16) (key : ExchangeKey) (es : List Exchange) :
    only packetId (under key es) = under key (only packetId es) :=
  List.filter_comm _ _ _

/-- A key is looked for among the exchanges under its identifier. -/
theorem isOpen_only (key : ExchangeKey) (es : List Exchange) :
    isOpen (only key.packetId es) key = isOpen es key := by
  rw [isOpen, only, List.any_filter]
  refine congrArg es.any (funext fun e => ?_)
  by_cases h : e.key = key
  · simp [h]
  · simp [h]

/-- What is opened under an identifier is opened among the exchanges under it. -/
theorem only_join (es : List Exchange) (e : Exchange) :
    only e.key.packetId (join es e) = join (only e.key.packetId es) e := by
  unfold join
  rw [isOpen_only]
  split
  · rfl
  · rw [only, List.filter_append, List.filter_cons_of_pos (by simp)]
    rfl

/-- Lists that agree under each identifier hold the same exchanges. -/
theorem perm_of_only {es es' : List Exchange} (h : ∀ i, only i es = only i es') :
    es.Perm es' := by
  -- An exchange is counted among those under its own identifier.
  refine List.perm_iff_count.mpr fun e => ?_
  have hcount : ∀ l : List Exchange, List.count e (only e.key.packetId l) = List.count e l :=
    fun l => List.count_filter (by simp)
  rw [← hcount es, ← hcount es', h]

end Exchange

namespace Session

open Exchange

/-- What routing a packet does to a session. -/
def exchanged (s : Session) : Packet → Session
  | .publish m =>
      if m.qos = .exactlyOnce then
        { s with received := join s.received ⟨⟨.publish, m.packetId⟩, .publish m⟩ }
      else s
  | .pubAck i => { s with sent := drop ⟨.publish, i⟩ s.sent }
  | .pubRec i =>
      if isOpen s.sent ⟨.publish, i⟩ then
        { sent := drop ⟨.publish, i⟩ s.sent ++ under ⟨.publish, i⟩ s.sent
          received := join s.received ⟨⟨.pubRec, i⟩, .pubRec i⟩ }
      else s
  | .pubRel i => { s with received := drop ⟨.publish, i⟩ s.received }
  | .pubComp i =>
      { sent := drop ⟨.publish, i⟩ s.sent, received := drop ⟨.pubRec, i⟩ s.received }
  | .subAck i _ => { s with sent := drop ⟨.subscribe, i⟩ s.sent }
  | .unsubAck i => { s with sent := drop ⟨.unsubscribe, i⟩ s.sent }
  | _ => s

/-- The exchanges of a session under an identifier. -/
def only (s : Session) (packetId : UInt16) : Session :=
  ⟨Exchange.only packetId s.sent, Exchange.only packetId s.received⟩

/-- An acknowledgment under an identifier that nothing is open under concerns no exchange. -/
theorem exchanged_of_free (s : Session) {p : Packet}
    (hkind : p.kind ∈ [.pubAck, .pubRec, .pubRel, .pubComp, .subAck, .unsubAck])
    (hfree : ∀ e ∈ s.sent ++ s.received, p.packetId? ≠ some e.key.packetId) :
    s.exchanged p = s := by
  have hsent : ∀ (kind : PacketKind) {i : UInt16}, p.packetId? = some i →
      ⟨kind, i⟩ ∉ keys s.sent := by
    intro kind i hid hmem
    obtain ⟨e, he, hkey⟩ := List.mem_map.mp hmem
    exact hfree e (List.mem_append_left _ he) (by rw [hid, hkey])
  have hreceived : ∀ (kind : PacketKind) {i : UInt16}, p.packetId? = some i →
      ⟨kind, i⟩ ∉ keys s.received := by
    intro kind i hid hmem
    obtain ⟨e, he, hkey⟩ := List.mem_map.mp hmem
    exact hfree e (List.mem_append_right _ he) (by rw [hid, hkey])
  -- So every key that an acknowledgment looks for is free.
  cases p with
  | pubAck i => rw [exchanged, drop_of_not_mem (hsent .publish rfl)]
  | pubRec i =>
      rw [exchanged, if_neg fun hopen => hsent .publish rfl (isOpen_iff.mp hopen)]
  | pubRel i => rw [exchanged, drop_of_not_mem (hreceived .publish rfl)]
  | pubComp i =>
      rw [exchanged, drop_of_not_mem (hsent .publish rfl), drop_of_not_mem (hreceived .pubRec rfl)]
  | subAck i granted => rw [exchanged, drop_of_not_mem (hsent .subscribe rfl)]
  | unsubAck i => rw [exchanged, drop_of_not_mem (hsent .unsubscribe rfl)]
  | _ => simp [Packet.kind] at hkind

/-- What is not looked at under the identifier of a packet is not changed by it. -/
theorem filter_exchanged (s : Session) {p : Packet} {P : Exchange → Bool}
    (hP : ∀ e, P e = true → p.packetId? ≠ some e.key.packetId) :
    (s.exchanged p).sent.filter P = s.sent.filter P ∧
      (s.exchanged p).received.filter P = s.received.filter P := by
  have hother : ∀ {i : UInt16} (kind : PacketKind), p.packetId? = some i →
      ∀ e, P e = true → e.key ≠ ⟨kind, i⟩ := by
    intro i kind hid e he hkey
    exact hP e he (by rw [hid, hkey])
  have hnew : ∀ {e : Exchange}, p.packetId? = some e.key.packetId → P e = false := by
    intro e hid
    exact Bool.eq_false_iff.mpr fun he => hP e he hid
  -- Whatever is dropped, moved or opened is under the identifier of the packet.
  cases p with
  | publish m =>
      rw [exchanged]
      split
      · next hqos =>
          have hid : (Packet.publish m).packetId? = some m.packetId := by
            simp [Packet.packetId?, hqos]
          exact ⟨rfl, filter_join (hnew (e := ⟨⟨.publish, m.packetId⟩, _⟩) hid) s.received⟩
      · exact ⟨rfl, rfl⟩
  | pubAck i => exact ⟨filter_drop (hother .publish rfl) s.sent, rfl⟩
  | pubRec i =>
      rw [exchanged]
      split
      · refine ⟨?_, filter_join (hnew (e := ⟨⟨.pubRec, i⟩, _⟩) rfl) s.received⟩
        rw [List.filter_append, filter_drop (hother .publish rfl),
          filter_under (hother .publish rfl), List.append_nil]
      · exact ⟨rfl, rfl⟩
  | pubRel i => exact ⟨rfl, filter_drop (hother .publish rfl) s.received⟩
  | pubComp i =>
      exact ⟨filter_drop (hother .publish rfl) s.sent, filter_drop (hother .pubRec rfl) s.received⟩
  | subAck i granted => exact ⟨filter_drop (hother .subscribe rfl) s.sent, rfl⟩
  | unsubAck i => exact ⟨filter_drop (hother .unsubscribe rfl) s.sent, rfl⟩
  | _ => exact ⟨rfl, rfl⟩

/-- What becomes of the identifier of a packet depends on nothing else. -/
theorem only_exchanged (s : Session) {p : Packet} {i : UInt16} (h : p.packetId? = some i) :
    (s.exchanged p).only i = (s.only i).exchanged p := by
  have hdrop : ∀ (kind : PacketKind) (es : List Exchange),
      Exchange.only i (drop ⟨kind, i⟩ es) = drop ⟨kind, i⟩ (Exchange.only i es) :=
    fun kind => only_drop i ⟨kind, i⟩
  cases p with
  | publish m =>
      obtain ⟨-, rfl⟩ := Packet.packetId?_publish h
      rw [exchanged, exchanged]
      split
      · exact congrArg (Session.mk _) (only_join s.received ⟨⟨.publish, m.packetId⟩, .publish m⟩)
      · rfl
  | pubAck j =>
      obtain rfl := Option.some.inj h
      exact congrArg (Session.mk · _) (hdrop .publish s.sent)
  | pubRec j =>
      obtain rfl := Option.some.inj h
      have hopen : isOpen (s.only j).sent ⟨.publish, j⟩ = isOpen s.sent ⟨.publish, j⟩ :=
        isOpen_only ⟨.publish, j⟩ s.sent
      -- Moving a message to the end does not depend on those under other identifiers.
      have hsent : Exchange.only j (drop ⟨.publish, j⟩ s.sent ++ under ⟨.publish, j⟩ s.sent)
          = drop ⟨.publish, j⟩ (Exchange.only j s.sent)
            ++ under ⟨.publish, j⟩ (Exchange.only j s.sent) := by
        rw [Exchange.only, List.filter_append]
        exact congr (congrArg _ (hdrop .publish s.sent)) (only_under j ⟨.publish, j⟩ s.sent)
      rw [exchanged, exchanged, hopen]
      split
      · exact congr (congrArg Session.mk hsent)
          (only_join s.received ⟨⟨.pubRec, j⟩, .pubRec j⟩)
      · rfl
  | pubRel j =>
      obtain rfl := Option.some.inj h
      exact congrArg (Session.mk _) (hdrop .publish s.received)
  | pubComp j =>
      obtain rfl := Option.some.inj h
      exact congr (congrArg Session.mk (hdrop .publish s.sent)) (hdrop .pubRec s.received)
  | subAck j granted =>
      obtain rfl := Option.some.inj h
      exact congrArg (Session.mk · _) (hdrop .subscribe s.sent)
  | unsubAck j =>
      obtain rfl := Option.some.inj h
      exact congrArg (Session.mk · _) (hdrop .unsubscribe s.sent)
  | _ => rfl

/-- A packet under another identifier, or under none, passes an identifier by. -/
theorem only_exchanged_of_ne (s : Session) {p : Packet} {i : UInt16} (h : p.packetId? ≠ some i) :
    (s.exchanged p).only i = s.only i := by
  have hP : ∀ e : Exchange, decide (e.key.packetId = i) = true →
      p.packetId? ≠ some e.key.packetId := by
    intro e he
    rw [of_decide_eq_true he]
    exact h
  obtain ⟨hsent, hreceived⟩ := s.filter_exchanged hP
  exact (Session.mk.injEq ..).mpr ⟨hsent, hreceived⟩

/-- Packets under different identifiers do to each identifier the same in either order. -/
theorem only_exchanged_comm (s : Session) {p q : Packet} (h : p.packetId? ≠ q.packetId?)
    (i : UInt16) :
    ((s.exchanged p).exchanged q).only i = ((s.exchanged q).exchanged p).only i := by
  -- The identifier is that of one of the packets at most, and the other one passes it by.
  by_cases hp : p.packetId? = some i
  · have hq : q.packetId? ≠ some i := fun hq => h (hp.trans hq.symm)
    rw [only_exchanged_of_ne _ hq, only_exchanged s hp, only_exchanged _ hp,
      only_exchanged_of_ne s hq]
  · rw [only_exchanged_of_ne (s.exchanged q) hp]
    by_cases hq : q.packetId? = some i
    · rw [only_exchanged _ hq, only_exchanged s hq, only_exchanged_of_ne s hp]
    · rw [only_exchanged_of_ne _ hq, only_exchanged_of_ne s hq, only_exchanged_of_ne s hp]

/-- So they leave the same exchanges. -/
theorem exchanged_comm (s : Session) {p q : Packet} (h : p.packetId? ≠ q.packetId?) :
    ((s.exchanged p).exchanged q).sent.Perm ((s.exchanged q).exchanged p).sent ∧
      ((s.exchanged p).exchanged q).received.Perm ((s.exchanged q).exchanged p).received :=
  ⟨perm_of_only fun i => congrArg Session.sent (s.only_exchanged_comm h i),
    perm_of_only fun i => congrArg Session.received (s.only_exchanged_comm h i)⟩

/-- A typed take drops what is under its key. -/
theorem snd_takeTyped {s : Session} (h : s.WellFormed) (t : TypedTake) (i : UInt16) :
    (s.takeTyped i t).2 = s.withEntries t.side (drop ⟨t.kind, i⟩ (s.entries t.side)) := by
  rcases takeTyped_cases h t i with ⟨front, e, back, hcut, hkey, htake⟩ | ⟨hnone, htake⟩
  · rw [htake, cut_eq_drop (h.nodup t.side) hcut, hkey]
  · rw [htake, drop_of_not_mem hnone, withEntries_entries]

/-- So PUBCOMP drops its mark before it looks for the message. -/
theorem snd_takeReceivedPubRec {s : Session} (h : s.WellFormed) (i : UInt16) :
    (s.takeReceivedPubRec i).2 = { s with received := drop ⟨.pubRec, i⟩ s.received } :=
  snd_takeTyped h .receivedPubRec i

end Session

namespace Core

open Exchange

/-- Tracking a received packet joins it to the exchanges of its side. -/
theorem session_trackReceived (core : Core) {p : Packet} {key : ExchangeKey}
    (hopens : p.opensExchange = true) (hkey : ExchangeKey.ofPacket? p = some key) :
    (core.trackReceived p).session
      = { core.session with received := join core.session.received ⟨key, p⟩ } := by
  unfold trackReceived join
  rcases core.session.trackReceived_cases p with
    ⟨-, key', hkey', hfree, hok⟩ | ⟨hopen, reason, herror⟩
  · obtain rfl := Option.some.inj (hkey.symm.trans hkey')
    rw [hok, if_neg fun h => hfree (isOpen_iff.mp h)]
  · rw [herror, if_pos (isOpen_iff.mpr (hopen hopens key hkey))]

/-- A PUBREC for a PUBLISH that is tracked is tracked in turn. -/
theorem received_route_pubRec {core : Core} (h : core.session.WellFormed) {i : UInt16}
    (hmem : ⟨.publish, i⟩ ∈ keys core.session.sent) :
    (core.route (.pubRec i)).core.session.received
      = join core.session.received ⟨⟨.pubRec, i⟩, .pubRec i⟩ := by
  rcases Session.takeSentPublish_cases h i with ⟨front, m, back, -, htake⟩ | ⟨hnone, -⟩
  · simp only [route, routePubRec, htake]
    refine (congrArg Session.received (session_trackReceived _ rfl rfl)).trans ?_
    rw [trackSent_received]
    rfl
  · exact absurd hmem hnone

/-- What routing a packet does to the session. -/
theorem session_route {core : Core} (h : core.session.WellFormed) (p : Packet) :
    (core.route p).core.session = core.session.exchanged p := by
  -- Each take drops a key; PUBREC tracks again what it took, and then itself.
  cases p with
  | publish m =>
      rw [Session.exchanged]
      by_cases hqos : m.qos = .exactlyOnce
      · have hkey : ExchangeKey.ofPacket? (.publish m) = some ⟨.publish, m.packetId⟩ :=
          ExchangeKey.ofPacket?_eq_some_iff.mpr ⟨rfl, by simp [Packet.packetId?, hqos]⟩
        have hopens : (Packet.publish m).opensExchange = true := decide_eq_true hqos
        rw [if_pos hqos, ← session_trackReceived core hopens hkey]
        simp only [route, routePublish, hqos]
        rfl
      · rw [if_neg hqos]
        simp only [route, routePublish]
        split <;> first | rfl | contradiction
  | pubAck i => exact Session.snd_takeTyped h .sentPublish i
  | pubRec i =>
      rw [Session.exchanged]
      rcases route_pubRec_cases h i with ⟨front, m, back, hfound, hsent, -⟩ | ⟨hnone, hroute⟩
      · have hmem : (⟨.publish, i⟩ : ExchangeKey) ∈ keys core.session.sent :=
          List.mem_map_of_mem (mem_cut hfound)
        rw [if_pos (isOpen_iff.mpr hmem), ← received_route_pubRec h hmem,
          ← cut_eq_drop h.sent_nodup hfound, under_of_cut h.sent_nodup hfound, ← hsent]
      · rw [if_neg fun hopen => hnone (isOpen_iff.mp hopen), hroute]
  | pubRel i => exact Session.snd_takeTyped h .receivedPublish i
  | pubComp i =>
      have hmark := Session.wellFormed_takeReceivedPubRec h i
      refine (Session.snd_takeTyped hmark .sentPublish i).trans ?_
      rw [Session.snd_takeReceivedPubRec h]
      rfl
  | subAck i granted => exact Session.snd_takeTyped h .sentSubscribe i
  | unsubAck i => exact Session.snd_takeTyped h .sentUnsubscribe i
  | _ => rfl

/-- What an application is told when a packet is routed is about a request or a message
under the same identifier. -/
theorem notice_route {core : Core} (h : core.session.WellFormed) (p : Packet) :
    ∀ n ∈ (core.route p).notice, ∃ q, n.packet? = some q ∧ q.packetId? = p.packetId? := by
  have hsent : ∀ {front back : List Exchange} {e : Exchange},
      core.session.sent = front ++ e :: back → e.packet.packetId? = some e.key.packetId :=
    fun hfound => packetId?_of_mem h.sent_keyed (mem_cut hfound)
  have hreceived : ∀ {front back : List Exchange} {e : Exchange},
      core.session.received = front ++ e :: back → e.packet.packetId? = some e.key.packetId :=
    fun hfound => packetId?_of_mem h.received_keyed (mem_cut hfound)
  intro n hn
  cases p with
  | publish m =>
      refine ⟨.publish m, ?_, rfl⟩
      simp only [route, routePublish] at hn
      split at hn <;> cases hn <;> rfl
  | pubAck i =>
      rcases Session.takeSentPublish_cases h i with ⟨_, m, _, hfound, htake⟩ | ⟨-, htake⟩ <;>
        simp only [route, htake] at hn <;> cases hn
      exact ⟨.publish m, rfl, hsent hfound⟩
  | pubRec i =>
      rcases route_pubRec_cases h i with ⟨_, _, _, -, -, -, -, hnotice⟩ | ⟨-, hroute⟩
      -- A PUBREC tells the application nothing, whether it matches or not.
      · rw [hnotice] at hn
        cases hn
      · rw [hroute] at hn
        cases hn
  | pubRel i =>
      rcases Session.takeReceivedPublish_cases h i with ⟨_, m, _, hfound, htake⟩ | ⟨-, htake⟩ <;>
        simp only [route, htake] at hn <;> cases hn
      exact ⟨.publish m, rfl, hreceived hfound⟩
  | pubComp i =>
      have hwell := Session.wellFormed_takeReceivedPubRec h i
      rcases Session.takeSentPublish_cases hwell i with ⟨_, m, _, hfound, htake⟩ | ⟨-, htake⟩ <;>
        simp only [route, htake] at hn <;> cases hn
      -- The mark was taken first, which leaves the sent side as it was.
      rw [Session.snd_takeReceivedPubRec h] at hfound
      exact ⟨.publish m, rfl, hsent hfound⟩
  | subAck i granted =>
      rcases Session.takeSentSubscribe_cases h i with ⟨_, r, _, hfound, htake⟩ | ⟨-, htake⟩ <;>
        simp only [route, htake] at hn <;> cases hn
      exact ⟨.subscribe r, rfl, hsent hfound⟩
  | unsubAck i =>
      rcases Session.takeSentUnsubscribe_cases h i with ⟨_, r, _, hfound, htake⟩ | ⟨-, htake⟩ <;>
        simp only [route, htake] at hn <;> cases hn
      exact ⟨.unsubscribe r, rfl, hsent hfound⟩
  | _ => cases hn

/-- What routing a packet leaves alone. -/
structure Confined (core : Core) (p : Packet) (routed : Routed) : Prop where
  /-- What was sent under other identifiers stays, in its order. -/
  sent : (routed.core.session.sent.filter fun e => p.packetId? ≠ some e.key.packetId)
    = core.session.sent.filter fun e => p.packetId? ≠ some e.key.packetId
  /-- So does what was received under them. -/
  received : (routed.core.session.received.filter fun e => p.packetId? ≠ some e.key.packetId)
    = core.session.received.filter fun e => p.packetId? ≠ some e.key.packetId
  /-- At most one answer is queued, at the end. -/
  pending : ∃ answer : Option Packet, routed.core.pending = core.pending ++ answer.toList ∧
    ∀ a ∈ answer, a.packetId? = p.packetId?
  /-- At most one notice is given, and it is about the exchange of the packet. -/
  notice : ∀ n ∈ routed.notice, ∃ q, n.packet? = some q ∧ q.packetId? = p.packetId?
  ids : routed.core.ids = core.ids
  pingedAt : p ≠ .pingResp → routed.core.keepAlive.pingedAt = core.keepAlive.pingedAt
  /-- An acknowledgment under an identifier that nothing is open under matches nothing. -/
  unmatched : p.kind ∈ [.pubAck, .pubRec, .pubRel, .pubComp, .subAck, .unsubAck] →
    (∀ e ∈ core.session.sent ++ core.session.received, p.packetId? ≠ some e.key.packetId) →
    routed.core.session = core.session
  /-- Packets that a server does not send, and a late CONNACK, mean nothing. -/
  ignored : p.kind ∈ [.connect, .connAck, .subscribe, .unsubscribe, .pingReq, .disconnect] →
    routed.core.session = core.session ∧ routed.core.pending = core.pending ∧
      routed.notice = none

/-- Every packet is confined. What it does to the session is said by `exchanged`, so
only the answer and the notice have to be looked at kind by kind. -/
theorem confined_route (core : Core) (h : core.session.WellFormed) (p : Packet) :
    Confined core p (core.route p) := by
  have hspared := core.session.filter_exchanged (p := p)
    (P := fun e => p.packetId? ≠ some e.key.packetId) fun e => of_decide_eq_true
  rw [← session_route h p] at hspared
  have hpending : ∃ answer : Option Packet,
      (core.route p).core.pending = core.pending ++ answer.toList ∧
        ∀ a ∈ answer, a.packetId? = p.packetId? :=
    (core.route_replies p).imp fun answer h => ⟨h.1, fun a ha => (h.2 a ha).2⟩
  have hidle : p.kind ∈ [.connect, .connAck, .subscribe, .unsubscribe, .pingReq, .disconnect] →
      core.route p = ⟨core, [], none⟩ := by
    intro hkind
    cases p <;> first | rfl | simp [Packet.kind] at hkind
  exact {
    sent := hspared.1
    received := hspared.2
    pending := hpending
    notice := notice_route h p
    ids := (route_frame core p).2.1
    pingedAt := fun hne => by rw [keepAlive_route, if_neg hne]
    unmatched := fun hkind hfree => (session_route h p).trans
      (core.session.exchanged_of_free hkind hfree)
    ignored := fun hkind => by simp [hidle hkind] }

end Core

namespace Client

/-- A client that reads a packet calls at most one handler for it. -/
theorem routing_of_wellFormed (c : Client) (core : Core) (h : core.session.WellFormed)
    (p : Packet) : c.routing core p
      = .received p :: (c.routed core p).notice.toList.map c.notification := by
  have hwell :
      ({ core with keepAlive := core.keepAlive.heard c.now } : Core).session.WellFormed := h
  have hevents : (c.routed core p).events = [] := Core.route_events hwell p
  rw [routing, hevents]
  rfl

/-- A client that receives a packet routes it, calls the handler for the notice, if there
is one, and looks at its keep-alive, unless the handler destroys the loop. -/
theorem receive_cases (c : Client) (core : Core) (p : Packet) :
    (c.receive core p).2 = c.routing core p ∨
      (c.receive core p).2 = c.routing core p ++ (c.endTurn (c.routed core p).core).2 := by
  by_cases h : ∀ n, (c.routed core p).notice = some n → c.handlers.survive n = true
  · rw [receive_of_survive h]
    exact Or.inr rfl
  -- Some handler destroys the loop, and nothing comes after that.
  · push Not at h
    obtain ⟨n, hnotice, hfail⟩ := h
    rw [receive_of_fail hnotice (Bool.eq_false_iff.mpr hfail)]
    exact Or.inl rfl

/-- Neither does the client do more when it notes that it heard of the server. -/
theorem confined_routed (c : Client) {core : Core} (h : core.session.WellFormed) (link : Link)
    (p : Packet) : Core.Confined core p (c.routed { core with link } p) :=
  { Core.confined_route { core with link, keepAlive := core.keepAlive.heard c.now } h p with }

/-- However a core was reached, and whatever else has come in or gone out since, a packet
that a client receives touches its own exchange only, and at most one handler is called
for it, once. So packets under different identifiers can be routed in either order. -/
theorem routing_local (settings : Settings) {s : Session} (link : Link) (as : List Action)
    (hs : s.WellFormed) {core : Core}
    (hcore : ((new settings s link).run as).1.loop.core? = some core) :
    (∀ (c : Client) (last : Link) (p : Packet),
      Core.Confined core p (c.routed { core with link := last } p) ∧
      ∃ later, (c.receive { core with link := last } p).2 = .received p ::
          (c.routed { core with link := last } p).notice.toList.map c.notification ++ later ∧
        (later = [] ∨ later = (c.endTurn (c.routed { core with link := last } p).core).2)) ∧
    ∀ p q : Packet, p.packetId? ≠ q.packetId? →
      ((core.route p).core.route q).core.session.sent.Perm
        ((core.route q).core.route p).core.session.sent ∧
      ((core.route p).core.route q).core.session.received.Perm
        ((core.route q).core.route p).core.session.received := by
  obtain ⟨reached, hmoves, hlast⟩ :=
    moves_run (new settings s link) as (Core.new settings s link 0) rfl
  obtain rfl := hlast core hcore
  have hwell := Core.wellFormed_moves hs hmoves
  -- A well-formed session is all that routing relies on.
  refine ⟨fun c last p => ⟨c.confined_routed hwell last p, ?_⟩, ?_⟩
  · have hrouting := c.routing_of_wellFormed { core with link := last } hwell p
    rcases c.receive_cases { core with link := last } p with hevents | hevents <;>
      rw [hevents, hrouting]
    · exact ⟨[], (List.append_nil _).symm, Or.inl rfl⟩
    · exact ⟨_, rfl, Or.inr rfl⟩
  · intro p q hne
    rw [Core.session_route (Core.wellFormed_route hwell p), Core.session_route hwell,
      Core.session_route (Core.wellFormed_route hwell q), Core.session_route hwell]
    exact core.session.exchanged_comm hne

/-- Two messages and a subscription wait for their answers. -/
def threefoldRun : List Action :=
  [.request (.publish ⟨"a", [1], .atLeastOnce, false, false, 0⟩),
    .request (.publish ⟨"b", [2], .exactlyOnce, false, false, 0⟩),
    .request (.subscribe "c" .atLeastOnce),
    .expect [.ok (.connAck false .accepted)], .connect none, .turn]

/-- The core of that run. -/
def threefoldCore : Core :=
  ((new default .empty default).run threefoldRun).1.loop.core?.get (by decide)

/-- A PUBREC moves the second message to the end and leaves the others in place. Whether
the PUBACK for the first one comes before it or after it makes no difference. -/
theorem routing_local_threefoldCore :
    Exchange.keys threefoldCore.session.sent
      = [⟨.publish, 1⟩, ⟨.publish, 2⟩, ⟨.subscribe, 3⟩] ∧
    Exchange.keys (threefoldCore.route (.pubRec 2)).core.session.sent
      = [⟨.publish, 1⟩, ⟨.subscribe, 3⟩, ⟨.publish, 2⟩] ∧
    Core.Confined threefoldCore (.pubRec 2)
      ((new default .empty default).routed { threefoldCore with link := default } (.pubRec 2)) ∧
    ((threefoldCore.route (.pubAck 1)).core.route (.pubRec 2)).core.session.sent.Perm
      ((threefoldCore.route (.pubRec 2)).core.route (.pubAck 1)).core.session.sent := by
  have hcore : ((new default .empty default).run threefoldRun).1.loop.core? = some threefoldCore :=
    (Option.some_get _).symm
  obtain ⟨hconfined, hswap⟩ :=
    routing_local default default threefoldRun Session.wellFormed_empty hcore
  exact ⟨by decide, by decide, (hconfined _ default (.pubRec 2)).1,
    (hswap (.pubAck 1) (.pubRec 2) (by decide)).1⟩

end Client

end Mqtt
