import Mqtt.Proofs.Client.Ledger
import Mqtt.Proofs.Session.PacketId

/-!
# `Mqtt.Proofs.Client.Balance`: no move loses or doubles a request

The requests in flight change in three ways only. One is added when a
request is queued under a new identifier, one is removed when it is
completed, and those of the session are removed when a clean connection
forgets them. `Core.Balanced` says so of the events of a move, and

* `Core.balanced_move`: every move is balanced, as long as no two requests
  in flight share an identifier (`Core.Distinct`) and a free identifier is
  left.

The identifiers are what keeps tracking from failing: a packet of the queue
whose identifier no other request has finds its key free in the session.
-/

set_option autoImplicit false

namespace Mqtt

namespace Core

/-- No two requests in flight share an identifier. -/
def Distinct (core : Core) : Prop :=
  (core.inFlight.map Packet.packetId?).Nodup

/-- What a move does to the requests in flight, as its events tell it. -/
structure Balanced (core : Core) (events : List Event) (core' : Core) : Prop where
  /-- A request leaves the inbox when it is queued. -/
  inbox : core.inbox.map Request.bare ++ (Log.accepted events).map Request.bare
    = (Log.queued events).filterMap Packet.request? ++ core'.inbox.map Request.bare
  /-- Nothing is lost, nothing is doubled. -/
  perm : ((core.inFlight ++ Log.requested events).map Packet.fresh).Perm
    ((core'.inFlight ++ (Log.completed events ++ Log.forgotten events)).map Packet.fresh)
  /-- What is added has an identifier of its own. -/
  added : Log.requested events = [] ∨ ∃ p, events = [.queued p] ∧ p.fresh = p ∧
    p.packetId? ∉ core.inFlight.map Packet.packetId?
  /-- What is completed was tracked, and the packet before acknowledges it. -/
  completed : Log.completed events = [] ∨ ∃ ack p n handler,
    events = [.received ack, .notified n handler] ∧ n.request? = some p ∧
      ack.acknowledges p = true ∧ p ∈ core.session.sent.map Exchange.packet
  /-- What is tracked was tracked before, or has just been written. -/
  tracked : ∀ p ∈ core'.session.sent.map Exchange.packet,
    p ∈ core.session.sent.map Exchange.packet ∨ (p ∈ core.inFlight ∧ Event.wrote p none ∈ events)
  /-- Tracking does not fail. -/
  safe : ∀ p reason, Event.untracked p reason ∉ events

/-! ### Identifiers -/

/-- The identifiers in use are those of the requests in flight. -/
theorem isIdTaken_iff {core : Core} (h : core.session.WellFormed) {i : UInt16} :
    core.isIdTaken i = true ↔ some i ∈ core.inFlight.map Packet.packetId? := by
  have hsent : core.session.usesId i = true ↔
      some i ∈ (core.session.sent.map Exchange.packet).map Packet.packetId? := by
    rw [List.map_map, Session.usesId, List.any_eq_true, List.mem_map]
    apply exists_congr
    intro e
    apply and_congr_right
    intro he
    have hid : e.packet.packetId? = some e.key.packetId := Exchange.packetId?_of_mem h.sent_keyed he
    rw [decide_eq_true_iff, Function.comp_apply, hid, Option.some_inj]
  have hpending : (core.pending.any fun p => p.isRequest && p.packetId? = some i) = true ↔
      some i ∈ (core.pending.filter Packet.awaitsAnswer).map Packet.packetId? := by
    rw [List.any_eq_true, List.mem_map]
    apply exists_congr
    intro p
    rw [List.mem_filter, Bool.and_eq_true, decide_eq_true_iff, and_assoc]
    -- A request of the queue has an identifier if it has to be answered.
    refine and_congr_right fun _ => ⟨?_, ?_⟩
    · rintro ⟨hrequest, hid⟩
      exact ⟨Packet.awaitsAnswer_of_isRequest hrequest hid, hid⟩
    · rintro ⟨hawaits, hid⟩
      exact ⟨Packet.isRequest_of_awaitsAnswer hawaits, hid⟩
  rw [isIdTaken, Bool.or_eq_true, hsent, hpending, inFlight, List.map_append, List.mem_append,
    or_comm]

/-- While an identifier is left, the next one is that of no request in flight. -/
theorem next_not_mem {core : Core} (h : core.session.WellFormed)
    (hroom : core.inFlight.length < 65534) :
    some (core.ids.next core.isIdTaken).1 ∉ core.inFlight.map Packet.packetId? := by
  have hlength : (core.inFlight.filterMap Packet.packetId?).length < 65534 :=
    Nat.lt_of_le_of_lt (List.length_filterMap_le _ _) hroom
  obtain ⟨i, hlow, hhigh, hfree⟩ := IdAllocator.exists_free _ hlength
  have hunused : core.isIdTaken i = false := by
    refine Bool.eq_false_iff.mpr fun htaken => hfree ?_
    obtain ⟨p, hp, hid⟩ := List.mem_map.mp ((isIdTaken_iff h).mp htaken)
    exact List.mem_filterMap.mpr ⟨p, hp, hid⟩
  -- One is free, so the one that is handed out is.
  have hnext := (IdAllocator.next_free core.ids core.isIdTaken).2.2 ⟨i, hlow, hhigh, hunused⟩
  intro hmem
  cases ((isIdTaken_iff h).mpr hmem).symm.trans hnext

/-- A request of the queue has another identifier than one that is tracked: they are
in flight beside each other. -/
theorem packetId?_ne_of_mem_sent {core : Core} (h : core.session.WellFormed)
    (hdistinct : core.Distinct) {p : Packet} (hp : p ∈ core.pending)
    (hawaits : p.awaitsAnswer = true) {e : Exchange} (he : e ∈ core.session.sent) :
    p.packetId? ≠ some e.key.packetId := by
  have hdisjoint := hdistinct
  rw [Distinct, inFlight, List.map_append, List.nodup_append] at hdisjoint
  rw [← Exchange.packetId?_of_mem h.sent_keyed he]
  exact hdisjoint.2.2 _ (List.mem_map_of_mem (List.mem_filter.mpr ⟨hp, hawaits⟩)) _
    (List.mem_map_of_mem (List.mem_map_of_mem he))

/-- A packet of the queue finds its key free in the session. -/
theorem key_not_mem_sent {core : Core} (h : core.session.WellFormed) (hdistinct : core.Distinct)
    {front back : List Packet} {p : Packet} (hpending : core.pending = front ++ p :: back)
    (hawaits : p.awaitsAnswer = true) {key : ExchangeKey}
    (hkey : ExchangeKey.ofPacket? p = some key) : key ∉ Exchange.keys core.session.sent := by
  intro hmem
  obtain ⟨e, he, rfl⟩ := List.mem_map.mp hmem
  obtain ⟨-, hid⟩ := ExchangeKey.ofPacket?_eq_some_iff.mp hkey
  have hp : p ∈ core.pending := by
    rw [hpending]
    simp
  exact packetId?_ne_of_mem_sent h hdistinct hp hawaits he hid

/-- A packet of the queue that has to be answered can be tracked. -/
theorem exists_key_not_mem_sent {core : Core} (h : core.session.WellFormed)
    (hdistinct : core.Distinct) {front back : List Packet} {p : Packet}
    (hpending : core.pending = front ++ p :: back) (hawaits : p.awaitsAnswer = true) :
    ∃ key, ExchangeKey.ofPacket? p = some key ∧ key ∉ Exchange.keys core.session.sent := by
  obtain ⟨i, hid⟩ := Option.isSome_iff_exists.mp (Packet.packetId?_isSome_of_awaitsAnswer hawaits)
  have hkey : ExchangeKey.ofPacket? p = some ⟨p.kind, i⟩ :=
    ExchangeKey.ofPacket?_eq_some_iff.mpr ⟨rfl, hid⟩
  exact ⟨_, hkey, key_not_mem_sent h hdistinct hpending hawaits hkey⟩

/-! ### Moves that keep what is in flight -/

/-- A move of which no event accepts, queues, completes or forgets anything
is balanced if it keeps what is in flight. -/
theorem Balanced.of_perm {core core' : Core} {events : List Event}
    (haccepted : Log.accepted events = []) (hqueued : Log.queued events = [])
    (hcompleted : Log.completed events = []) (hforgotten : Log.forgotten events = [])
    (hinbox : core'.inbox = core.inbox)
    (hperm : (core.inFlight.map Packet.fresh).Perm (core'.inFlight.map Packet.fresh))
    (htracked : ∀ p ∈ core'.session.sent.map Exchange.packet,
      p ∈ core.session.sent.map Exchange.packet ∨ (p ∈ core.inFlight ∧ Event.wrote p none ∈ events))
    (hsafe : ∀ p reason, Event.untracked p reason ∉ events) : Balanced core events core' := by
  have hrequested : Log.requested events = [] := by
    rw [Log.requested, hqueued]
    rfl
  constructor
  · rw [haccepted, hqueued, hinbox]
    simp
  · rw [hrequested, hcompleted, hforgotten, List.append_nil, List.append_nil, List.append_nil]
    exact hperm
  · exact Or.inl hrequested
  · exact Or.inl hcompleted
  · exact htracked
  · exact hsafe

/-- What is aside is balanced. -/
theorem balanced_aside {core core' : Core} {events : List Event} (hbooks : core'.books = core.books)
    (haside : ∀ e ∈ events, e.isAside = true) : Balanced core events core' := by
  have hinbox : core'.inbox = core.inbox := congrArg Books.inbox hbooks
  have hpending : core'.pending = core.pending := congrArg Books.pending hbooks
  have hsession : core'.session = core.session := congrArg Books.session hbooks
  have hflight : core'.inFlight = core.inFlight := by
    rw [inFlight, hpending, hsession]
    rfl
  obtain ⟨haccepted, hqueued, hcompleted, hforgotten⟩ := Log.of_isAside haside
  refine .of_perm haccepted hqueued hcompleted hforgotten hinbox (by rw [hflight]) ?_ ?_
  · intro p hp
    rw [hsession] at hp
    exact Or.inl hp
  · intro p reason hmem
    cases haside _ hmem

/-- Asking for something is balanced. -/
theorem balanced_ask (core : Core) (r : Request) :
    Balanced core [.accepted r] { core with inbox := core.inbox ++ [r] } where
  inbox := (List.map_append).symm
  perm := List.Perm.refl _
  added := Or.inl rfl
  completed := Or.inl rfl
  tracked := fun _ hp => Or.inl hp
  safe := by simp

/-- Turning a request into a packet is balanced while an identifier is left. -/
theorem balanced_queue {core : Core} (h : core.session.WellFormed) {r : Request}
    {inbox : List Request} (hinbox : core.inbox = r :: inbox)
    (hroom : ∀ p, ({ core with inbox }.accept r).2 = [.queued p] → p.awaitsAnswer = true →
      core.inFlight.length < 65534) :
    Balanced core ({ core with inbox }.accept r).2 ({ core with inbox }.accept r).1 := by
  obtain ⟨p, ids, haccept, -, hrequest, hfresh, hid⟩ := accept_cases { core with inbox } r
  rw [haccept] at hroom ⊢
  have hqueued : (Log.queued [.queued p]).filterMap Packet.request? = [r.bare] := by
    show [p].filterMap Packet.request? = [r.bare]
    rw [List.filterMap_cons_some hrequest]
    rfl
  -- The queue is in front of the session, so what is added at its end comes
  -- to stand between the two.
  have hflight : { core with inbox, ids, pending := core.pending ++ [p] }.inFlight
      = core.pending.filter Packet.awaitsAnswer ++ [p].filter Packet.awaitsAnswer
        ++ core.session.sent.map Exchange.packet := by
    rw [inFlight, List.filter_append]
  constructor
  · rw [hinbox, hqueued]
    show (r :: inbox).map Request.bare ++ [] = [r.bare] ++ inbox.map Request.bare
    simp
  · show ((core.inFlight ++ [p].filter Packet.awaitsAnswer).map Packet.fresh).Perm _
    refine List.Perm.map _ ?_
    show List.Perm _ (_ ++ [])
    rw [hflight, List.append_nil, inFlight, List.append_assoc, List.append_assoc]
    exact (List.perm_append_comm).append_left _
  · by_cases hawaits : p.awaitsAnswer = true
    · refine Or.inr ⟨p, rfl, hfresh, ?_⟩
      rw [hid hawaits]
      exact @next_not_mem { core with inbox } h (hroom p rfl hawaits)
    · left
      show [p].filter Packet.awaitsAnswer = []
      simp [hawaits]
  · exact Or.inl rfl
  · exact fun _ hp => Or.inl hp
  · simp

/-- Writing a packet of the queue is balanced. -/
theorem balanced_write {core : Core} (h : core.session.WellFormed) (hdistinct : core.Distinct)
    {front back : List Packet} {p : Packet} (hpending : core.pending = front ++ p :: back) :
    Balanced core (.wrote p none :: ({ core with pending := front ++ back }.noteWritten p).2)
      ({ core with pending := front ++ back }.noteWritten p).1 := by
  have hflight : core.inFlight = front.filter Packet.awaitsAnswer
      ++ [p].filter Packet.awaitsAnswer ++ back.filter Packet.awaitsAnswer
      ++ core.session.sent.map Exchange.packet := by
    rw [inFlight, hpending, show front ++ p :: back = front ++ [p] ++ back by simp,
      List.filter_append, List.filter_append]
  rcases noteWritten_cases { core with pending := front ++ back } p with
    ⟨hawaits, key, -, -, hnote⟩ | ⟨hawaits, hnote⟩ | ⟨hawaits, hopen, -⟩
  · -- It has to be answered, and goes from the queue to the session.
    rw [hnote]
    have hflight' : { core with pending := front ++ back, session := { core.session with
        sent := core.session.sent ++ [Exchange.mk key p] } }.inFlight
        = front.filter Packet.awaitsAnswer ++ back.filter Packet.awaitsAnswer
          ++ (core.session.sent.map Exchange.packet ++ [p]) := by
      rw [inFlight, List.filter_append, List.map_append]
      rfl
    refine .of_perm rfl rfl rfl rfl rfl ?_ ?_ (by simp)
    · rw [hflight, hflight', List.filter_cons_of_pos hawaits, List.filter_nil]
      apply List.Perm.map
      rw [List.perm_iff_count]
      intro q
      simp only [List.count_append]
      omega
    · intro q hq
      rw [List.map_append, List.mem_append] at hq
      apply hq.imp_right
      intro hq
      obtain rfl : q = p := List.mem_singleton.mp hq
      refine ⟨?_, List.mem_cons_self⟩
      rw [hflight, List.filter_cons_of_pos hawaits]
      simp
  · -- It needs no answer, and is no longer held anywhere.
    rw [hnote]
    refine .of_perm rfl rfl rfl rfl rfl ?_ (fun _ hq => Or.inl hq) (by simp)
    rw [hflight, inFlight, List.filter_append,
      List.filter_cons_of_neg (by rw [hawaits]; exact Bool.false_ne_true)]
    simp
  · -- Tracking fails under an open key only, and the key is free.
    obtain ⟨key, hkey, hfree⟩ := exists_key_not_mem_sent h hdistinct hpending hawaits
    exact absurd (hopen key hkey) hfree

/-! ### Routing -/

/-- Routing a packet is balanced. -/
theorem balanced_route {core : Core} (h : core.session.WellFormed) (p : Packet)
    (handler : Option Handler) :
    Balanced core
      (.received p :: (core.route p).events
        ++ (core.route p).notice.toList.map (.notified · handler))
      (core.route p).core := by
  obtain ⟨hinbox, -, -⟩ := route_frame core p
  cases route_cases h p with
  | answer answers hanswers hsent hpending hevents hnotice =>
      -- What goes to the queue is no request, so the requests are the same.
      have hnone : answers.filter Packet.awaitsAnswer = [] := by
        apply List.filter_eq_nil_iff.mpr
        intro a ha hawaits
        cases (hanswers a ha).symm.trans (Packet.isRequest_of_awaitsAnswer hawaits)
      have hflight : (core.route p).core.inFlight = core.inFlight := by
        rw [inFlight, hpending, hsent, List.filter_append, hnone, List.append_nil]
        rfl
      have htracked : ∀ q ∈ (core.route p).core.session.sent.map Exchange.packet,
          q ∈ core.session.sent.map Exchange.packet := by
        intro q hq
        rw [hsent] at hq
        exact hq
      rw [hevents]
      cases hn : (core.route p).notice with
      | none =>
          exact .of_perm rfl rfl rfl rfl hinbox (by rw [hflight])
            (fun q hq => Or.inl (htracked q hq)) (by simp)
      | some n =>
          have hcompleted : Log.completed [.received p, .notified n handler] = [] :=
            List.filterMap_cons_none (show (Event.notified n handler).completed? = none
              from hnotice n hn)
          exact .of_perm rfl rfl hcompleted rfl hinbox (by rw [hflight])
            (fun q hq => Or.inl (htracked q hq)) (by simp)
  | complete front back e n hfound hsent hpending hevents hnotice hrequest hacknowledges =>
      -- The one exchange leaves the session, and is told to the application.
      rw [hevents, hnotice]
      have hcompleted : Log.completed [.received p, .notified n handler] = [e.packet] := by
        show [Event.notified n handler].filterMap Event.completed? = [e.packet]
        rw [List.filterMap_cons_some (show (Event.notified n handler).completed? = some e.packet
          from hrequest)]
        rfl
      constructor
      · rw [hinbox]
        exact List.append_nil _
      · show ((core.inFlight ++ []).map Packet.fresh).Perm
          ((_ ++ (Log.completed [.received p, .notified n handler] ++ [])).map Packet.fresh)
        rw [hcompleted, inFlight, inFlight, hfound, hsent, hpending]
        apply List.Perm.map
        rw [List.perm_iff_count]
        intro q
        simp only [List.map_append, List.map_cons, List.count_append, List.count_cons,
          List.count_nil]
        omega
      · exact Or.inl rfl
      · exact Or.inr ⟨p, e.packet, n, handler, rfl, hrequest, hacknowledges,
          List.mem_map_of_mem (mem_cut hfound)⟩
      · intro q hq
        rw [hsent] at hq
        exact Or.inl (((sublist_cut hfound).map _).subset hq)
      · simp
  | release front back e packetId hfound _ hsent hpending hevents hnotice =>
      -- The exchange goes to the end of the session; its PUBREL is no request.
      rw [hevents, hnotice]
      refine .of_perm rfl rfl rfl rfl hinbox ?_ ?_ (by simp)
      · rw [inFlight, inFlight, hfound, hsent, hpending, List.filter_append,
          show [Packet.pubRel packetId].filter Packet.awaitsAnswer = [] from rfl]
        apply List.Perm.map
        rw [List.perm_iff_count]
        intro q
        simp only [List.map_append, List.map_cons, List.count_append, List.count_cons,
          List.map_nil, List.count_nil]
        omega
      · intro q hq
        rw [hsent] at hq
        rw [hfound]
        left
        simp only [List.map_append, List.mem_append, List.map_cons, List.mem_cons] at hq ⊢
        tauto

/-! ### Connecting -/

/-- What redelivery does with an exchange: it goes back to the queue, or it
stays and the queue gets its PUBREL. -/
theorem redelivery_cases (s : Session) {e : Exchange} (h : e.packet.awaitsAnswer = true) :
    (s.staysTracked e = false ∧ (s.redelivery e).awaitsAnswer = true ∧
      (s.redelivery e).fresh = e.packet.fresh) ∨
    (s.staysTracked e = true ∧ (s.redelivery e).awaitsAnswer = false) := by
  unfold Session.staysTracked Session.redelivery
  cases hpacket : e.packet with
  | publish m =>
      rw [hpacket] at h
      dsimp only
      -- A message goes back to the queue unless it has its PUBREC.
      by_cases hreleased : s.isReleased e.key.packetId = true
      · exact Or.inr ⟨hreleased, by rw [if_pos hreleased]; rfl⟩
      · refine Or.inl ⟨Bool.eq_false_iff.mpr hreleased, ?_, ?_⟩
        · rw [if_neg hreleased]
          exact h
        · rw [if_neg hreleased]
          rfl
  | subscribe r => exact Or.inl ⟨rfl, rfl, rfl⟩
  | unsubscribe r => exact Or.inl ⟨rfl, rfl, rfl⟩
  | _ =>
      rw [hpacket] at h
      cases h

/-- Redelivery puts every request in one place, the queue or the session. -/
theorem perm_redeliver (s : Session) {es : List Exchange}
    (h : ∀ e ∈ es, e.packet.awaitsAnswer = true) :
    (((es.map s.redelivery).filter Packet.awaitsAnswer
      ++ (es.filter s.staysTracked).map Exchange.packet).map Packet.fresh).Perm
    ((es.map Exchange.packet).map Packet.fresh) := by
  -- Exchange by exchange: each is the next packet of the queue, or comes
  -- behind the whole queue as the next one of the session.
  induction es with
  | nil => exact List.Perm.refl _
  | cons e es ih =>
      have hrest := ih fun e' he' => h e' (List.mem_cons_of_mem e he')
      rw [List.map_cons, List.map_cons, List.map_cons]
      rcases redelivery_cases s (h e List.mem_cons_self) with
        ⟨hstays, hawaits, hfresh⟩ | ⟨hstays, hawaits⟩
      · rw [List.filter_cons_of_pos hawaits,
          List.filter_cons_of_neg (by rw [hstays]; exact Bool.false_ne_true),
          List.cons_append, List.map_cons, hfresh]
        exact hrest.cons _
      · rw [List.filter_cons_of_neg (by rw [hawaits]; exact Bool.false_ne_true),
          List.filter_cons_of_pos hstays, List.map_cons]
        exact (List.perm_middle.map _).trans (hrest.cons _)

/-- Dropping the answers of an old connection drops no request. -/
theorem filter_isRequest_awaitsAnswer (ps : List Packet) :
    (ps.filter Packet.isRequest).filter Packet.awaitsAnswer = ps.filter Packet.awaitsAnswer := by
  rw [List.filter_filter]
  apply List.filter_congr
  intro p _
  cases p <;> simp [Packet.isRequest, Packet.awaitsAnswer]

/-- Making ready for a new connection is balanced. -/
theorem balanced_resume {core : Core} (h : core.session.WellFormed) (now : Nat) :
    Balanced core (core.resume now).2 (core.resume now).1 := by
  cases hclean : core.settings.cleanSession with
  | true =>
      -- What the session held is what the event forgets.
      rw [resume_clean core now hclean]
      constructor
      · exact List.append_nil _
      · show ((core.inFlight ++ []).map Packet.fresh).Perm
          ((((core.pending.filter Packet.isRequest).filter Packet.awaitsAnswer ++ [])
            ++ ([] ++ (core.session.sent.map Exchange.packet ++ []))).map Packet.fresh)
        rw [filter_isRequest_awaitsAnswer, List.append_nil, List.append_nil, List.append_nil]
        exact List.Perm.refl _
      · exact Or.inl rfl
      · exact Or.inl rfl
      · intro q hq
        cases hq
      · simp
  | false =>
      rw [resume_kept core now hclean]
      refine .of_perm rfl rfl rfl rfl rfl ?_ ?_ (by simp)
      · show (core.inFlight.map Packet.fresh).Perm
          (((core.session.sent.map core.session.redelivery
              ++ core.pending.filter Packet.isRequest).filter Packet.awaitsAnswer
            ++ (core.session.sent.filter core.session.staysTracked).map Exchange.packet).map
              Packet.fresh)
        rw [List.filter_append, filter_isRequest_awaitsAnswer]
        rw [List.perm_iff_count]
        intro q
        -- Redelivery shares the session out between queue and session, and
        -- the rest of the queue stays behind it.
        have hcount := List.perm_iff_count.mp (perm_redeliver core.session h.sent_awaits) q
        rw [inFlight]
        simp only [List.map_append, List.count_append] at hcount ⊢
        omega
      · intro q hq
        exact Or.inl ((List.filter_sublist.map _).subset hq)

/-- Every move is balanced. -/
theorem balanced_move {connecting : Bool} {core core' : Core} {events : List Event}
    (h : core.session.WellFormed) (hdistinct : core.Distinct)
    (hroom : ∀ p, events = [.queued p] → p.awaitsAnswer = true → core.inFlight.length < 65534)
    (hmove : Move connecting core events core') : Balanced core events core' := by
  cases hmove with
  | aside hbooks haside => exact balanced_aside hbooks haside
  | ask _ r => exact balanced_ask core r
  | queue hinbox => exact balanced_queue h hinbox hroom
  | write hpending => exact balanced_write h hdistinct hpending
  | route _ p handler => exact balanced_route h p handler
  | resume _ now => exact balanced_resume h now

end Core

end Mqtt
