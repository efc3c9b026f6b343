import Mqtt.Proofs.Client.Flush
import Mqtt.Proofs.Client.Receipt

/-!
# `Mqtt.Proofs.Client.Requeue`: a connection queues everything once

Making a connection queues the tracked requests of the session again, each as
itself or as the PUBREL that stands for it (`Session.requeued`), in front of
the requests that still wait. Messages that have a PUBREC stay in the
session.

* `Core.nodup_resume`: no request and no PUBREL is queued twice.
* `Core.perm_moves`: moves conserve requests, whatever was in flight before.
* `Core.renewed_moves`: until a packet comes in or is written, the queue holds
  what the connection put there (`Core.Renewed`), so that the next connection
  only changes the order.
* `Client.connect_requeues`: what it says of the states that runs reach.
-/

set_option autoImplicit false

namespace Mqtt

namespace Session

/-- What a new connection queues for a tracked request: PUBREL for a message that
has a PUBREC, otherwise the request itself, a message marked as a duplicate. -/
def requeued (s : Session) (e : Exchange) : Packet :=
  match e.packet with
  | .publish m =>
      if ⟨⟨.pubRec, m.packetId⟩, .pubRec m.packetId⟩ ∈ s.received then .pubRel m.packetId
      else .publish { m with duplicate := true }
  | p => p

/-- Whether an exchange is that of a message that has a PUBREC. -/
def isMarked (s : Session) (e : Exchange) : Bool :=
  match e.packet with
  | .publish m => ⟨⟨.pubRec, m.packetId⟩, .pubRec m.packetId⟩ ∈ s.received
  | _ => false

/-- Redelivery is told by the PUBREC packets of the session. -/
theorem redelivery_eq_requeued {s : Session} (h : s.WellFormed) {e : Exchange}
    (he : e ∈ s.sent) : s.redelivery e = s.requeued e ∧ s.staysTracked e = s.isMarked e := by
  have hid := Exchange.packetId?_of_mem h.sent_keyed he
  unfold redelivery requeued staysTracked isMarked
  cases hpacket : e.packet with
  | publish m =>
      rw [hpacket] at hid
      obtain ⟨-, hid'⟩ := Packet.packetId?_publish hid
      dsimp only
      rw [hid']
      refine ⟨if_congr (isReleased_iff_mem h) rfl rfl, Bool.eq_iff_iff.mpr ?_⟩
      rw [decide_eq_true_iff]
      exact isReleased_iff_mem h
  | _ => exact ⟨rfl, rfl⟩

/-- What is queued for a request has its identifier. -/
theorem packetId?_redelivery {s : Session} (h : s.WellFormed) {e : Exchange} (he : e ∈ s.sent) :
    (s.redelivery e).packetId? = some e.key.packetId := by
  have hid := Exchange.packetId?_of_mem h.sent_keyed he
  unfold redelivery
  split
  · next m hpacket =>
      split
      · rfl
      · rw [← hid, hpacket]
        rfl
  · exact hid

/-- A message that stays in the session has PUBREL in the queue. -/
theorem redelivery_of_staysTracked {s : Session} {e : Exchange} (h : s.staysTracked e = true) :
    s.redelivery e = .pubRel e.key.packetId := by
  unfold staysTracked at h
  unfold redelivery
  split at h
  · exact if_pos h
  · cases h

/-- What is queued for a request is a request, unless the request stays in the session. -/
theorem isRequest_redelivery (s : Session) {e : Exchange} (h : e.packet.awaitsAnswer = true) :
    (s.redelivery e).isRequest = !s.staysTracked e := by
  cases hstays : s.staysTracked e with
  | true =>
      rw [redelivery_of_staysTracked hstays]
      rfl
  | false =>
      rcases Core.redelivery_cases s h with ⟨-, hawaits, -⟩ | ⟨hstays', -⟩
      · exact Packet.isRequest_of_awaitsAnswer hawaits
      · cases hstays.symm.trans hstays'

end Session

/-- Whether an event brings no packet, and writes none but what a client writes on
its own account. -/
def Event.isIdle : Event → Bool
  | .received _ => false
  | .wrote p none => (Event.wrote p none).isOwn
  | _ => true

namespace Log

/-- Whether no packet came in or was written, but what a client writes on its own
account. -/
def Untouched (log : List Event) : Prop :=
  ∀ e ∈ log, e.isIdle = true

/-- Logs in a row leave the session untouched if both do. -/
theorem untouched_append_iff {log later : List Event} :
    Untouched (log ++ later) ↔ Untouched log ∧ Untouched later :=
  List.forall_mem_append

end Log

namespace Core

/-! ### What is queued once -/

/-- The requests of a queue that have an identifier are those that have to be answered. -/
theorem filterMap_packetId?_requests (ps : List Packet) :
    (ps.filter Packet.isRequest).filterMap Packet.packetId?
      = (ps.filter Packet.awaitsAnswer).filterMap Packet.packetId? := by
  induction ps with
  | nil => rfl
  | cons p ps ih =>
      by_cases hrequest : p.isRequest = true
      · rw [List.filter_cons_of_pos hrequest]
        by_cases hawaits : p.awaitsAnswer = true
        · rw [List.filter_cons_of_pos hawaits, List.filterMap_cons, List.filterMap_cons, ih]
        · -- A request that needs no answer has no identifier.
          have hnone : p.packetId? = none := by
            refine Option.eq_none_iff_forall_ne_some.mpr fun i hid => hawaits ?_
            exact Packet.awaitsAnswer_of_isRequest hrequest hid
          rw [List.filter_cons_of_neg hawaits, List.filterMap_cons_none hnone, ih]
      · have hawaits : ¬p.awaitsAnswer = true :=
          fun hawaits => hrequest (Packet.isRequest_of_awaitsAnswer hawaits)
        rw [List.filter_cons_of_neg hrequest, List.filter_cons_of_neg hawaits, ih]

/-- Identifiers that are distinct are distinct without the packets that have none. -/
theorem nodup_filterMap_packetId? {ps : List Packet} (h : (ps.map Packet.packetId?).Nodup) :
    (ps.filterMap Packet.packetId?).Nodup := by
  have hid : ps.filterMap Packet.packetId? = (ps.map Packet.packetId?).filterMap id := by
    rw [List.filterMap_map, Function.id_comp]
  rw [hid]
  refine h.filterMap ?_
  intro a a' i ha ha'
  exact (Option.mem_def.mp ha).trans (Option.mem_def.mp ha').symm

/-- No request and no PUBREL is queued twice by a connection. -/
theorem nodup_resume {core : Core} (h : core.session.WellFormed) (hdistinct : core.Distinct)
    (hkept : core.settings.cleanSession = false) (now : Nat) :
    ((core.resume now).1.pending.filterMap Packet.packetId?).Nodup := by
  have hredelivery : (core.session.sent.map core.session.redelivery).filterMap Packet.packetId?
      = (core.session.sent.map Exchange.packet).filterMap Packet.packetId? := by
    rw [List.filterMap_map, List.filterMap_map]
    apply List.filterMap_congr
    intro e he
    exact (Session.packetId?_redelivery h he).trans (Exchange.packetId?_of_mem h.sent_keyed he).symm
  rw [resume_kept core now hkept]
  show ((core.session.sent.map core.session.redelivery
    ++ core.pending.filter Packet.isRequest).filterMap Packet.packetId?).Nodup
  rw [List.filterMap_append, hredelivery, filterMap_packetId?_requests]
  -- These are the identifiers of the requests in flight.
  have hflight := nodup_filterMap_packetId? hdistinct
  rw [inFlight, List.filterMap_append] at hflight
  exact List.perm_append_comm.nodup_iff.mp hflight

/-! ### Writing all of it -/

/-- Moves conserve the requests that were in flight at their start. -/
theorem perm_moves {connecting : Bool} {start core : Core} {log : List Event}
    (h : start.Identified) (hmoves : Moves connecting start log core)
    (hroomy : Log.RoomyAfter start.inFlight.length log) :
    ((start.inFlight ++ Log.requested log).map Packet.fresh).Perm
      ((core.inFlight ++ (Log.completed log ++ Log.forgotten log)).map Packet.fresh) := by
  induction hmoves with
  | refl => exact List.Perm.refl _
  | snoc hmoves hmove ih =>
      have hbefore := (Log.always_append_iff.mp hroomy).1
      have hbalanced := (tallied_moves h hmoves hbefore).balanced hmove hroomy
      rw [List.perm_iff_count]
      intro q
      have hlog := List.perm_iff_count.mp (ih hbefore) q
      have hevents := List.perm_iff_count.mp hbalanced.perm q
      rw [Log.requested_append, Log.completed_append, Log.forgotten_append]
      simp only [List.map_append, List.count_append] at hlog hevents ⊢
      omega

/-- The keys of exchanges are those of their packets. -/
theorem filterMap_ofPacket? {es : List Exchange} (h : Exchange.Keyed es) :
    (es.map Exchange.packet).filterMap ExchangeKey.ofPacket? = Exchange.keys es := by
  rw [List.filterMap_map, Exchange.keys, ← List.filterMap_eq_map]
  apply List.filterMap_congr
  intro e he
  exact h e he

/-- Packets that differ in the duplicate flag only have the same keys. -/
theorem filterMap_ofPacket?_perm {ps qs : List Packet}
    (h : (ps.map Packet.fresh).Perm (qs.map Packet.fresh)) :
    (ps.filterMap ExchangeKey.ofPacket?).Perm (qs.filterMap ExchangeKey.ofPacket?) := by
  have hfresh : ∀ rs : List Packet, (rs.map Packet.fresh).filterMap ExchangeKey.ofPacket?
      = rs.filterMap ExchangeKey.ofPacket? := by
    intro rs
    rw [List.filterMap_map]
    apply List.filterMap_congr
    intro p _
    cases p <;> rfl
  rw [← hfresh ps, ← hfresh qs]
  exact h.filterMap _

/-- Without a queued request there is room. -/
theorem roomyAfter_of_queued {resumed : Nat} {log : List Event} (h : Log.queued log = []) :
    Log.RoomyAfter resumed log := by
  intro before e after hlog p hp _
  have hmem : p ∈ Log.queued log := List.mem_filterMap.mpr ⟨e, by rw [hlog]; simp, by rw [hp]; rfl⟩
  rw [h] at hmem
  cases hmem

/-- When the whole queue was written, everything that was in flight is tracked. -/
theorem keys_flush {core : Core} (h : core.Identified) (hall : core.flush.1.pending = []) :
    (Exchange.keys core.flush.1.session.sent).Perm
      (core.inFlight.filterMap ExchangeKey.ofPacket?) := by
  obtain ⟨hqueued, hcompleted, hforgotten⟩ := of_flush core
  have hmoves : Moves false core core.flush.2.1 core.flush.1 := moves_flush core
  have hwell := wellFormed_moves h.wellFormed hmoves
  have hperm := perm_moves h hmoves (roomyAfter_of_queued hqueued)
  rw [Log.requested, hqueued, hcompleted, hforgotten, List.filter_nil, List.append_nil,
    List.append_nil, List.append_nil] at hperm
  have hsent : core.flush.1.inFlight = core.flush.1.session.sent.map Exchange.packet := by
    rw [inFlight, hall]
    rfl
  rw [hsent] at hperm
  rw [← filterMap_ofPacket? hwell.sent_keyed]
  exact (filterMap_ofPacket?_perm hperm).symm

/-- The network has no part in what identifiers are in use. -/
theorem Identified.withLink {core : Core} (h : core.Identified) (link : Link) :
    { core with link }.Identified :=
  ⟨h.wellFormed, h.distinct, h.numbered⟩

/-- A connection leaves the same requests in flight, and tells them apart. -/
theorem identified_resume {core : Core} (h : core.Identified)
    (hkept : core.settings.cleanSession = false) (now : Nat) :
    (core.resume now).1.Identified ∧
      (core.inFlight.map Packet.fresh).Perm ((core.resume now).1.inFlight.map Packet.fresh) := by
  have hevents : (core.resume now).2 = [.established none] := by
    rw [resume_kept core now hkept]
  have hmoves : Moves true core (core.resume now).2 (core.resume now).1 :=
    Moves.single (.resume core now)
  have hroomy : Log.RoomyAfter core.inFlight.length (core.resume now).2 :=
    roomyAfter_of_queued (by rw [hevents]; rfl)
  refine ⟨(tallied_moves h hmoves hroomy).identified, ?_⟩
  have hperm := perm_moves h hmoves hroomy
  rw [hevents] at hperm
  have hnone : Log.requested [.established none] = []
      ∧ Log.completed [.established none] ++ Log.forgotten [.established none] = [] :=
    ⟨rfl, rfl⟩
  rw [hnone.1, hnone.2, List.append_nil, List.append_nil] at hperm
  exact hperm

/-- What a connection queues, and what it leaves in the session. -/
theorem resume_requeues {core : Core} (h : core.session.WellFormed)
    (hkept : core.settings.cleanSession = false) (now : Nat) :
    (core.resume now).1.pending
        = core.session.sent.map core.session.requeued ++ core.pending.filter Packet.isRequest ∧
      (core.resume now).1.session
        = ⟨core.session.sent.filter core.session.isMarked, core.session.received⟩ := by
  have hredelivery : core.session.sent.map core.session.redelivery
      = core.session.sent.map core.session.requeued :=
    List.map_congr_left fun e he => (Session.redelivery_eq_requeued h he).1
  have hstays : core.session.sent.filter core.session.staysTracked
      = core.session.sent.filter core.session.isMarked :=
    List.filter_congr fun e he => (Session.redelivery_eq_requeued h he).2
  rw [resume_kept core now hkept, ← hredelivery, ← hstays]
  exact ⟨rfl, rfl⟩

/-! ### Connecting again -/

/-- A core that a connection left with a session and a queue, as long as nothing is
touched: all that is tracked stays tracked and has its PUBREL in the queue, and
the queue holds what it held, and what was queued since. -/
structure Renewed (held : Session) (queue : List Packet) (log : List Event) (core : Core) :
    Prop where
  session : core.session = held
  stays : ∀ e ∈ held.sent, held.staysTracked e = true
  answers : (core.pending.filter fun p => !p.isRequest).Perm (held.sent.map held.redelivery)
  pending : core.pending.Perm (queue ++ Log.queued log)

/-- What a connection leaves is renewed. -/
theorem renewed_resume {core : Core} (h : core.session.WellFormed)
    (hkept : core.settings.cleanSession = false) (now : Nat) :
    Renewed (core.resume now).1.session (core.resume now).1.pending [] (core.resume now).1 := by
  rw [resume_kept core now hkept]
  refine ⟨rfl, fun e he => (List.mem_filter.mp he).2, ?_, ?_⟩
  · show ((core.session.sent.map core.session.redelivery
        ++ core.pending.filter Packet.isRequest).filter fun p => !p.isRequest).Perm
      ((core.session.sent.filter core.session.staysTracked).map core.session.redelivery)
    have hnone : (core.pending.filter Packet.isRequest).filter (fun p => !p.isRequest) = [] := by
      rw [List.filter_filter]
      simp
    rw [List.filter_append, hnone, List.append_nil, List.filter_map]
    have hsame : core.session.sent.filter ((fun p => !p.isRequest) ∘ core.session.redelivery)
        = core.session.sent.filter core.session.staysTracked := by
      apply List.filter_congr
      intro e he
      rw [Function.comp_apply, Session.isRequest_redelivery _ (h.sent_awaits e he), Bool.not_not]
    rw [hsame]
  · rw [show Log.queued [] = [] from rfl, List.append_nil]

/-- Until something is touched, every move keeps what a connection left. -/
theorem renewed_move {connecting : Bool} {held : Session} {queue : List Packet}
    {log events : List Event} {core core' : Core} (h : Renewed held queue log core)
    (hwell : core.session.WellFormed) (hkept : core.settings.cleanSession = false)
    (hmove : Move connecting core events core') (huntouched : Log.Untouched events) :
    Renewed held queue (log ++ events) core' := by
  -- What is written belongs to the client, so it is no packet of the queue.
  have hwritten : ∀ {front back : List Packet} {p : Packet}, core.pending = front ++ p :: back →
      Event.wrote p none ∈ events → False := by
    intro front back p hpending hmem
    have hown : (Event.wrote p none).isOwn = true := huntouched _ hmem
    have hanswer : p ∈ core.pending.filter fun p => !p.isRequest := by
      refine List.mem_filter.mpr ⟨by rw [hpending]; simp, ?_⟩
      rw [Event.isRequest_of_isOwn hown]
      rfl
    obtain ⟨e, he, rfl⟩ := List.mem_map.mp (h.answers.mem_iff.mp hanswer)
    rw [Session.redelivery_of_staysTracked (h.stays e he)] at hown
    cases hown
  cases hmove.effect hwell with
  | aside hbooks haside =>
      have hpending : core'.pending = core.pending := congrArg Books.pending hbooks
      refine ⟨(congrArg Books.session hbooks).trans h.session, h.stays, ?_, ?_⟩
      · rw [hpending]
        exact h.answers
      · rw [hpending, Log.queued_append, (Log.of_isAside haside).2.1, List.append_nil]
        exact h.pending
  | ask _ r =>
      refine ⟨h.session, h.stays, h.answers, ?_⟩
      rw [Log.queued_append, show Log.queued [.accepted r] = [] from rfl, List.append_nil]
      exact h.pending
  | @queue _ _ r inbox p ids hinbox hrequest hfresh hid =>
      have hp : (!p.isRequest) = false := by
        cases p <;> first | rfl | cases hrequest
      refine ⟨h.session, h.stays, ?_, ?_⟩
      · show ((core.pending ++ [p]).filter fun p => !p.isRequest).Perm _
        rw [List.filter_append, List.filter_cons_of_neg (by rw [hp]; exact Bool.false_ne_true),
          List.filter_nil, List.append_nil]
        exact h.answers
      · rw [Log.queued_append, ← List.append_assoc]
        exact h.pending.append_right [p]
  | track hpending => exact (hwritten hpending List.mem_cons_self).elim
  | drop hpending => exact (hwritten hpending List.mem_cons_self).elim
  | refuse hpending => exact (hwritten hpending List.mem_cons_self).elim
  | route p handler hrouting => cases huntouched _ List.mem_cons_self
  | forget now hclean => cases hclean.symm.trans hkept
  | redeliver now =>
      -- The PUBREL packets are queued again in front of the requests.
      have hperm : (core.session.sent.map core.session.redelivery
          ++ core.pending.filter Packet.isRequest).Perm core.pending := by
        rw [h.session]
        refine (h.answers.symm.append_right _).trans ?_
        exact List.perm_append_comm.trans (List.filter_append_perm _ _)
      have hall : core.session.sent.filter core.session.staysTracked = core.session.sent := by
        rw [h.session]
        exact List.filter_eq_self.mpr h.stays
      refine ⟨?_, h.stays, (hperm.filter _).trans h.answers, ?_⟩
      · show { core.session with sent := core.session.sent.filter core.session.staysTracked } = held
        rw [hall]
        exact h.session
      · rw [Log.queued_append, show Log.queued [.established none] = [] from rfl, List.append_nil]
        exact hperm.trans h.pending

/-- So do chains of moves. -/
theorem renewed_moves {connecting : Bool} {held : Session} {queue : List Packet}
    {start core : Core} {log : List Event} (h : Renewed held queue [] start)
    (hwell : start.session.WellFormed) (hkept : start.settings.cleanSession = false)
    (hmoves : Moves connecting start log core) (huntouched : Log.Untouched log) :
    Renewed held queue log core := by
  induction hmoves with
  | refl => exact h
  | snoc hmoves hmove ih =>
      obtain ⟨hbefore, hevents⟩ := Log.untouched_append_iff.mp huntouched
      exact renewed_move (ih hbefore) (wellFormed_moves hwell hmoves)
        (cleanSession_moves hmoves hkept) hmove hevents

/-! ### What a connection does -/

/-- What a connection that was made does to a core. -/
structure Reconnects (core core' : Core) : Prop where
  settings : core'.settings = core.settings
  pending : core'.pending
    = core.session.sent.map core.session.requeued ++ core.pending.filter Packet.isRequest
  session : core'.session = ⟨core.session.sent.filter core.session.isMarked, core.session.received⟩
  nodup : (core'.pending.filterMap Packet.packetId?).Nodup
  identified : core'.Identified
  flight : (core.inFlight.map Packet.fresh).Perm (core'.inFlight.map Packet.fresh)
  renewed : Renewed core'.session core'.pending [] core'

/-- Making ready for a connection does so. -/
theorem reconnects_resume {core : Core} (h : core.Identified)
    (hkept : core.settings.cleanSession = false) (now : Nat) :
    Reconnects core (core.resume now).1 where
  settings := settings_move (.resume core now)
  pending := (resume_requeues h.wellFormed hkept now).1
  session := (resume_requeues h.wellFormed hkept now).2
  nodup := nodup_resume h.wellFormed h.distinct hkept now
  identified := (identified_resume h hkept now).1
  flight := (identified_resume h hkept now).2
  renewed := renewed_resume h.wellFormed hkept now

/-- A connection that was made left a core that is ready for it. -/
theorem eq_resume_of_connect {core core' : Core} {now : Nat} {opening : Option ClientError}
    {events : List Event} (hconnect : core.connect now opening = (core', events, none)) :
    ∃ link, core' = ({ core with link }.resume now).1 := by
  obtain ⟨link, events', -, ⟨failure, hfailed⟩ | hresumed⟩ := connect_cases core now opening
  · rw [hconnect] at hfailed
    cases hfailed
  · rw [hconnect] at hresumed
    exact ⟨link, congrArg Prod.fst hresumed⟩

/-- A connection that was made is ready to write what is queued again. -/
theorem reconnects_connect {core core' : Core} (h : core.Identified)
    (hkept : core.settings.cleanSession = false) {now : Nat} {opening : Option ClientError}
    {events : List Event} (hconnect : core.connect now opening = (core', events, none)) :
    Reconnects core core' := by
  obtain ⟨link, rfl⟩ := eq_resume_of_connect hconnect
  -- The network that it is made on has no part in it.
  obtain ⟨hsettings, hpending, hsession, hnodup, hidentified, hflight, hrenewed⟩ :=
    reconnects_resume (h.withLink link) hkept now
  exact ⟨hsettings, hpending, hsession, hnodup, hidentified, hflight, hrenewed⟩

/-- Writing what a connection queued fails to track nothing. When all of it was
written, the keys are those that were tracked or waited before. -/
theorem Reconnects.flush {core core' : Core} (h : Reconnects core core')
    (hwell : core.session.WellFormed) (link : Link) :
    (∀ p reason, Event.untracked p reason ∉ ({ core' with link }.flush).2.1) ∧
      (({ core' with link }.flush).1.pending = [] →
        (Exchange.keys ({ core' with link }.flush).1.session.sent).Perm
          (Exchange.keys core.session.sent
            ++ (core.pending.filter Packet.awaitsAnswer).filterMap ExchangeKey.ofPacket?)) := by
  have hlinked := h.identified.withLink link
  have hmoves : Moves false { core' with link } _ _ := moves_flush { core' with link }
  refine ⟨(tallied_moves hlinked hmoves (roomyAfter_of_queued (of_flush _).1)).safe, ?_⟩
  intro hall
  -- What is tracked then is what was in flight before.
  refine (keys_flush hlinked hall).trans ((filterMap_ofPacket?_perm h.flight.symm).trans ?_)
  rw [inFlight, List.filterMap_append, filterMap_ofPacket? hwell.sent_keyed]
  exact List.perm_append_comm

/-- Another connection, before anything was touched, changes the order of the queue
only. -/
theorem Renewed.reconnect {held : Session} {queue : List Packet} {log : List Event}
    {core core' : Core} (h : Renewed held queue log core) (hwell : core.session.WellFormed)
    (hkept : core.settings.cleanSession = false) {now : Nat} {opening : Option ClientError}
    {events : List Event} (hconnect : core.connect now opening = (core', events, none)) :
    core'.session = held ∧ core'.pending.Perm core.pending := by
  obtain ⟨link, rfl⟩ := eq_resume_of_connect hconnect
  have hlinked : Renewed held queue log { core with link } :=
    ⟨h.session, h.stays, h.answers, h.pending⟩
  have hevents : ({ core with link }.resume now).2 = [.established none] := by
    rw [resume_kept { core with link } now hkept]
  -- The second connection is one more move behind the first, and changes nothing either.
  have hagain := renewed_move hlinked hwell hkept (.resume { core with link } now)
    (by rw [hevents]; simp [Log.Untouched, Event.isIdle])
  refine ⟨hagain.session, hagain.pending.trans ?_⟩
  rw [hevents, Log.queued_append, show Log.queued [.established none] = [] from rfl,
    List.append_nil]
  exact h.pending.symm

end Core

namespace Client

/-- A connection in any state that a run reaches, if the session is not clean and
the run left a free identifier whenever one was needed.

The queue is what the session tracks, the oldest first, and then the requests
that were waiting; none of it is there twice. Messages that have a PUBREC
stay in the session. When all of the queue is written, the session tracks the
same keys as before, and those of the requests that were waiting; tracking
does not fail. If a client with such a core connects again before a packet
comes in or is written, the session stays as it is, and the queue changes in
its order only. -/
theorem connect_requeues (settings : Settings) {s : Session} (link : Link) (as : List Action)
    (hs : Resumable s) (hkept : settings.cleanSession = false)
    (hroomy : Log.RoomyAfter s.sent.length ((new settings s link).run as).2) {core : Core}
    (hcore : ((new settings s link).run as).1.loop.core? = some core) {now : Nat}
    {opening : Option ClientError} {core' : Core} {events : List Event}
    (hconnect : core.connect now opening = (core', events, none)) :
    (core'.pending
        = core.session.sent.map core.session.requeued ++ core.pending.filter Packet.isRequest ∧
      core'.session = ⟨core.session.sent.filter core.session.isMarked, core.session.received⟩ ∧
      (core'.pending.filterMap Packet.packetId?).Nodup) ∧
    (∀ link', (∀ p reason, Event.untracked p reason ∉ ({ core' with link := link' }.flush).2.1) ∧
      (({ core' with link := link' }.flush).1.pending = [] →
        (Exchange.keys ({ core' with link := link' }.flush).1.session.sent).Perm
          (Exchange.keys core.session.sent
            ++ (core.pending.filter Packet.awaitsAnswer).filterMap ExchangeKey.ofPacket?))) ∧
    ∀ (c : Client) (later : List Action) (core₁ : Core), c.loop.core? = some core' →
      (c.run later).1.loop.core? = some core₁ → Log.Untouched (c.run later).2 →
      ∀ now' opening' core₂ events', core₁.connect now' opening' = (core₂, events', none) →
        core₁.session = core'.session ∧ core₂.session = core'.session ∧
        core₁.pending.Perm (core'.pending ++ Log.queued (c.run later).2) ∧
        core₂.pending.Perm core₁.pending ∧
        (Log.RoomyAfter core'.inFlight.length (c.run later).2 →
          (core₂.pending.filterMap Packet.packetId?).Nodup) := by
  obtain ⟨last, hmoves, hlast⟩ :=
    moves_run (new settings s link) as (Core.new settings s link 0) rfl
  obtain rfl := hlast core hcore
  rw [← Core.length_inFlight_new settings s link 0] at hroomy
  have hidentified := (Core.tallied_moves (hs.identified settings link) hmoves hroomy).identified
  have hclean := Core.cleanSession_moves hmoves hkept
  -- What the connection queues follows from the requests in flight being told apart.
  have hreconnects := Core.reconnects_connect hidentified hclean hconnect
  have hclean' := (congrArg Settings.cleanSession hreconnects.settings).trans hclean
  refine ⟨⟨hreconnects.pending, hreconnects.session, hreconnects.nodup⟩,
    hreconnects.flush hidentified.wellFormed, ?_⟩
  intro c later core₁ hc hcore₁ huntouched now' opening' core₂ events' hagain
  -- A client goes on with this core until it connects again.
  obtain ⟨last₁, hmoves₁, hlast₁⟩ := moves_run c later core' hc
  obtain rfl := hlast₁ core₁ hcore₁
  have hwell₁ := Core.wellFormed_moves hreconnects.identified.wellFormed hmoves₁
  have hclean₁ := Core.cleanSession_moves hmoves₁ hclean'
  have hrenewed := Core.renewed_moves hreconnects.renewed hreconnects.identified.wellFormed
    hclean' hmoves₁ huntouched
  obtain ⟨hsession, hperm⟩ := hrenewed.reconnect hwell₁ hclean₁ hagain
  refine ⟨hrenewed.session, hsession, hrenewed.pending, hperm, ?_⟩
  intro hroomy₁
  have htallied₁ := Core.tallied_moves hreconnects.identified hmoves₁ hroomy₁
  exact (Core.reconnects_connect htallied₁.identified hclean₁ hagain).nodup

/-- A message is released, and its PUBREL times out; another one waits for its
answer, and a third one to be written, when the connection ends. -/
def waitingRun : List Action :=
  [.request (.publish ⟨"a", [1], .exactlyOnce, false, false, 0⟩),
    .request (.publish ⟨"b", [2], .atLeastOnce, false, false, 0⟩),
    .expect [.ok (.connAck false .accepted), .ok (.pubRec 1)], .connect none, .turn, .turn,
    .request (.publish ⟨"c", [3], .atLeastOnce, false, false, 0⟩),
    .outcomes [some .timeout, some .timeout], .turn, .disconnect false,
    .expect [.ok (.connAck true .accepted)]]

/-- The core that it leaves. -/
def waitingCore : Core :=
  ((new default .empty default).run waitingRun).1.loop.core?.get (by decide)

/-- The core on the next connection. -/
def reconnectedCore : Core :=
  (waitingCore.connect 0 none).1

/-- That connection ends at the first write. -/
def interruptedRun : List Action :=
  [.outcomes [some .connectionClosed], .turn, .expect [.ok (.connAck true .accepted)]]

/-- The core that is left then. -/
def interruptedCore : Core :=
  ((Client.mk (.running .top reconnectedCore) true .none 0).run interruptedRun).1.loop.core?.get
    (by decide)

/-- The queue changes in its order only. -/
theorem connect_requeues_waitingRun :
    (reconnectedCore.pending = [.publish ⟨"b", [2], .atLeastOnce, false, true, 2⟩, .pubRel 1,
        .publish ⟨"c", [3], .atLeastOnce, false, false, 3⟩] ∧
      (reconnectedCore.pending.filterMap Packet.packetId?).Nodup) ∧
    (Exchange.keys ({ reconnectedCore with link := default }.flush).1.session.sent).Perm
      [⟨.publish, 2⟩, ⟨.publish, 1⟩, ⟨.publish, 3⟩] ∧
    (interruptedCore.connect 0 none).1.pending
        = [.pubRel 1, .publish ⟨"b", [2], .atLeastOnce, false, true, 2⟩,
          .publish ⟨"c", [3], .atLeastOnce, false, false, 3⟩] ∧
    (interruptedCore.connect 0 none).1.pending.Perm interruptedCore.pending := by
  have hended : (waitingCore.connect 0 none).2.2 = none ∧
      (interruptedCore.connect 0 none).2.2 = none := by
    decide
  have hconnect : waitingCore.connect 0 none
      = (reconnectedCore, (waitingCore.connect 0 none).2.1, none) :=
    Prod.ext rfl (Prod.ext rfl hended.1)
  have hagain : interruptedCore.connect 0 none
      = ((interruptedCore.connect 0 none).1, (interruptedCore.connect 0 none).2.1, none) :=
    Prod.ext rfl (Prod.ext rfl hended.2)
  have huntouched : Log.Untouched
      ((Client.mk (.running .top reconnectedCore) true .none 0).run interruptedRun).2 := by
    unfold Log.Untouched
    decide
  obtain ⟨⟨-, -, hnodup⟩, hflush, hlater⟩ := connect_requeues default default waitingRun .empty rfl
    (Log.roomyAfter_of_length (by decide)) (Option.some_get _).symm hconnect
  obtain ⟨-, -, -, hperm, -⟩ := hlater (Client.mk (.running .top reconnectedCore) true .none 0)
    interruptedRun interruptedCore rfl (Option.some_get _).symm huntouched 0 none _ _ hagain
  exact ⟨⟨by decide, hnodup⟩, (hflush default).2 (by decide), by decide, hperm⟩

end Client

end Mqtt
