import Mqtt.Proofs.Client.Moves
import Mqtt.Proofs.Session.Exchange

/-!
# `Mqtt.Proofs.Client.Ledger`: requests, in the log and in the core

What becomes of a request can be read off the log: it is accepted, queued
as a packet, completed by a notice, or forgotten by a clean connection
(`Log.accepted`, `Log.queued`, `Log.completed`, `Log.forgotten`). The
core holds those that are in between (`Core.inFlight`). A request is told
from others by its packet, whose duplicate flag does not count
(`Packet.fresh`).

What a move does to requests is said once for each operation of the core:

* `Core.accept_cases`: a request becomes a packet at the end of the queue.
* `Core.noteWritten_cases`: a packet that was written is tracked, if it
  has to be answered.
* `Core.route_cases`: routing a packet completes one request, or moves one
  to the end of the session, or leaves all requests alone.
* `Core.resume_clean`, `Core.resume_kept`: a connection forgets the session,
  or puts what it redelivers in front of the queue.

`Core.Effect` puts these together: it has one case for each thing that a move
can do (`Core.Move.effect`), and statements about all moves are proved by it.
-/

set_option autoImplicit false

namespace Mqtt

/-- A packet as it was when it was written first. -/
def Packet.fresh : Packet → Packet
  | .publish m => .publish { m with duplicate := false }
  | p => p

/-- What an application asked for, less what the client decides on. -/
def Request.bare : Request → Request
  | .publish m => .publish { m with duplicate := false, packetId := 0 }
  | r => r

/-- What an application asked for, told by the packet that carries it. -/
def Packet.request? : Packet → Option Request
  | .publish m => some (.publish { m with duplicate := false, packetId := 0 })
  | .subscribe r => some (.subscribe r.topic r.qos)
  | .unsubscribe r => some (.unsubscribe r.topic)
  | _ => none

/-- Whether a packet ends the exchange that a request opened. -/
def Packet.acknowledges : Packet → (request : Packet) → Bool
  | .pubAck i, .publish m | .pubComp i, .publish m => m.packetId = i
  | .subAck i _, .subscribe r => r.packetId = i
  | .unsubAck i, .unsubscribe r => r.packetId = i
  | _, _ => false

/-- The packet of the request that a notice completes. -/
def Notice.request? : Notice → Option Packet
  | .deliveryCompleted m => some (.publish m)
  | .subscribeCompleted r _ => some (.subscribe r)
  | .unsubscribeCompleted r => some (.unsubscribe r)
  | _ => none

namespace Event

/-- The request that an event accepts. -/
def accepted? : Event → Option Request
  | .accepted r => some r
  | _ => none

/-- The packet that an event queues for a request. -/
def queued? : Event → Option Packet
  | .queued p => some p
  | _ => none

/-- The request that an event completes. -/
def completed? : Event → Option Packet
  | .notified n _ => n.request?
  | _ => none

/-- The requests that an event forgets: a clean connection forgets those of
the session. -/
def forgotten : Event → List Packet
  | .established (some s) => s.sent.map Exchange.packet
  | _ => []

/-- What is aside has nothing to do with requests. -/
theorem of_isAside {e : Event} (h : e.isAside = true) :
    e.accepted? = none ∧ e.queued? = none ∧ e.completed? = none ∧ e.forgotten = [] := by
  cases e with
  | notified n handler => cases n <;> first | exact ⟨rfl, rfl, rfl, rfl⟩ | cases h
  | _ => first | exact ⟨rfl, rfl, rfl, rfl⟩ | cases h

end Event

namespace Log

/-- The requests that were accepted, in order. -/
def accepted (log : List Event) : List Request :=
  log.filterMap Event.accepted?

/-- The packets that were queued for requests, in order. -/
def queued (log : List Event) : List Packet :=
  log.filterMap Event.queued?

/-- The packets of requests that have to be answered. -/
def requested (log : List Event) : List Packet :=
  (queued log).filter Packet.awaitsAnswer

/-- The requests that were completed. -/
def completed (log : List Event) : List Packet :=
  log.filterMap Event.completed?

/-- The requests that were forgotten by clean connections. -/
def forgotten (log : List Event) : List Packet :=
  log.flatMap Event.forgotten

/-- How many requests are in flight: they were handed an identifier, and
neither completed nor forgotten. -/
def inFlight (log : List Event) : Nat :=
  (requested log).length - ((completed log).length + (forgotten log).length)

/-- Whether every event of a log is as `P` says, given the log before it. -/
def Always (P : List Event → Event → Prop) (log : List Event) : Prop :=
  ∀ before e after, log = before ++ e :: after → P before e

/-- Whenever a request is handed an identifier, fewer than 65534 requests
are in flight. -/
def Roomy : List Event → Prop :=
  Always fun before e => ∀ p, e = .queued p → p.awaitsAnswer = true → inFlight before < 65534

/-- The same of a log that began while `resumed` requests were in flight. -/
def RoomyAfter (resumed : Nat) : List Event → Prop :=
  Always fun before e => ∀ p, e = .queued p → p.awaitsAnswer = true →
    resumed + (requested before).length
      - ((completed before).length + (forgotten before).length) < 65534

/-- In an empty log there is nothing to hold of. -/
theorem always_nil (P : List Event → Event → Prop) : Always P [] := by
  intro before e after h
  cases before <;> cases h

/-- The first event has no log before it, and stands in the log before every other. -/
theorem always_cons_iff {P : List Event → Event → Prop} {e : Event} {log : List Event} :
    Always P (e :: log) ↔ P [] e ∧ Always (fun before => P (e :: before)) log := by
  -- An event of the longer log is the first one, or one of the rest.
  constructor
  · intro h
    refine ⟨h [] e log rfl, ?_⟩
    intro before e' after hlog
    exact h (e :: before) e' after (by rw [hlog]; rfl)
  · rintro ⟨hfirst, hrest⟩ before e' after hlog
    cases before with
    | nil =>
        obtain ⟨rfl, -⟩ := List.cons.inj hlog
        exact hfirst
    | cons e₁ before =>
        obtain ⟨rfl, htail⟩ := List.cons.inj hlog
        exact hrest before e' after htail

/-- What always holds of two logs in a row holds of the first, and of the
second behind it. -/
theorem always_append_iff {P : List Event → Event → Prop} {log later : List Event} :
    Always P (log ++ later) ↔ Always P log ∧ Always (fun before => P (log ++ before)) later := by
  induction log generalizing P with
  | nil => exact ⟨fun h => ⟨always_nil P, h⟩, And.right⟩
  | cons e log ih => rw [List.cons_append, always_cons_iff, always_cons_iff, ih, and_assoc]; rfl

/-- An event of two logs in a row is one of the first, or one of the second. -/
theorem split_append {α : Type} {log events before since : List α} {e : α}
    (h : log ++ events = before ++ e :: since) :
    (∃ rest, log = before ++ e :: rest ∧ since = rest ++ events) ∨
    (∃ rest, before = log ++ rest ∧ events = rest ++ e :: since) := by
  rcases List.append_eq_append_iff.mp h with ⟨rest, hbefore, hevents⟩ | ⟨rest, hlog, hsince⟩
  · exact Or.inr ⟨rest, hbefore, hevents⟩
  · cases rest with
    | nil =>
        rw [List.append_nil] at hlog
        exact Or.inr ⟨[], by rw [hlog, List.append_nil], hsince.symm⟩
    | cons e' rest =>
        obtain ⟨rfl, htail⟩ := List.cons.inj hsince
        exact Or.inl ⟨rest, hlog, htail⟩

/-- Logs in a row accept what each accepts, in order. -/
theorem accepted_append (log later : List Event) :
    accepted (log ++ later) = accepted log ++ accepted later :=
  List.filterMap_append

/-- They queue what each queues. -/
theorem queued_append (log later : List Event) :
    queued (log ++ later) = queued log ++ queued later :=
  List.filterMap_append

/-- Of what they queue, they request what each does. -/
theorem requested_append (log later : List Event) :
    requested (log ++ later) = requested log ++ requested later := by
  rw [requested, queued_append, List.filter_append]
  rfl

/-- They complete what each completes. -/
theorem completed_append (log later : List Event) :
    completed (log ++ later) = completed log ++ completed later :=
  List.filterMap_append

/-- They forget what each forgets. -/
theorem forgotten_append (log later : List Event) :
    forgotten (log ++ later) = forgotten log ++ forgotten later :=
  List.flatMap_append

/-- A packet that comes in completes what its notice does. -/
theorem completed_received (p : Packet) (notice : Option Notice) (handler : Option Handler) :
    completed (.received p :: notice.toList.map (.notified · handler))
      = (notice.bind Notice.request?).toList := by
  cases notice with
  | none => rfl
  | some n =>
      show [Event.notified n handler].filterMap Event.completed? = n.request?.toList
      cases hrequest : n.request? with
      | none => exact List.filterMap_cons_none hrequest
      | some q => exact List.filterMap_cons_some hrequest

/-- What holds of the one request that a packet completes holds of all that the
events complete. -/
theorem always_completed {Q : List Event → Packet → Prop} {events : List Event}
    (h : completed events = [] ∨ ∃ ack p n handler,
      events = [.received ack, .notified n handler] ∧ n.request? = some p ∧ Q [.received ack] p) :
    Always (fun before e => ∀ p, e.completed? = some p → Q before p) events := by
  rcases h with hnone | ⟨ack, p, n, handler, hevents, hrequest, hQ⟩
  · intro before e after hlog p hp
    have hmem : p ∈ completed events := List.mem_filterMap.mpr ⟨e, by rw [hlog]; simp, hp⟩
    rw [hnone] at hmem
    cases hmem
  · rw [hevents, always_cons_iff, always_cons_iff]
    refine ⟨by simp [Event.completed?], ?_, always_nil _⟩
    intro q hq
    obtain rfl : p = q := Option.some.inj (hrequest.symm.trans hq)
    exact hQ

/-- Events that are aside accept, queue, complete and forget nothing. -/
theorem of_isAside {events : List Event} (h : ∀ e ∈ events, e.isAside = true) :
    accepted events = [] ∧ queued events = [] ∧ completed events = []
      ∧ forgotten events = [] := by
  refine ⟨?_, ?_, ?_, ?_⟩
  · exact List.filterMap_eq_nil_iff.mpr fun e he => (Event.of_isAside (h e he)).1
  · exact List.filterMap_eq_nil_iff.mpr fun e he => (Event.of_isAside (h e he)).2.1
  · exact List.filterMap_eq_nil_iff.mpr fun e he => (Event.of_isAside (h e he)).2.2.1
  · exact List.flatMap_eq_nil_iff.mpr fun e he => (Event.of_isAside (h e he)).2.2.2

end Log

namespace Packet

/-- There is one duplicate flag, and it is cleared once for all. -/
theorem fresh_fresh (p : Packet) : p.fresh.fresh = p.fresh := by
  cases p <;> rfl

/-- Whether a packet has to be answered does not depend on the duplicate flag. -/
theorem awaitsAnswer_fresh (p : Packet) : p.fresh.awaitsAnswer = p.awaitsAnswer := by
  cases p <;> rfl

/-- Clearing the duplicate flag keeps the identifier. -/
theorem packetId?_fresh (p : Packet) : p.fresh.packetId? = p.packetId? := by
  cases p <;> rfl

/-- So packets that differ in it only have the same one. -/
theorem packetId?_eq_of_fresh {p q : Packet} (h : p.fresh = q.fresh) :
    p.packetId? = q.packetId? := by
  rw [← p.packetId?_fresh, h, q.packetId?_fresh]

/-- What has to be answered is a request. -/
theorem isRequest_of_awaitsAnswer {p : Packet} (h : p.awaitsAnswer = true) :
    p.isRequest = true := by
  cases p <;> first | rfl | cases h

/-- A request with an identifier has to be answered. -/
theorem awaitsAnswer_of_isRequest {p : Packet} {i : UInt16} (h : p.isRequest = true)
    (hid : p.packetId? = some i) : p.awaitsAnswer = true := by
  cases p with
  | publish m => exact decide_eq_true (packetId?_publish hid).1
  | _ => first | rfl | cases h

end Packet

namespace Core

/-- The requests that have an identifier and are not answered: those of the
queue, and those of the session. -/
def inFlight (core : Core) : List Packet :=
  core.pending.filter Packet.awaitsAnswer ++ core.session.sent.map Exchange.packet

/-- The packet of a request is a fresh one that carries it, with an
identifier from the allocator if it has to be answered. -/
theorem packetOf_cases (core : Core) (r : Request) :
    ∃ ids, (core.packetOf r).2 = { core with ids } ∧
      (core.packetOf r).1.isRequest = true ∧
      (core.packetOf r).1.request? = some r.bare ∧
      (core.packetOf r).1.fresh = (core.packetOf r).1 ∧
      ((core.packetOf r).1.awaitsAnswer = true →
        (core.packetOf r).1.packetId? = some (core.ids.next core.isIdTaken).1) := by
  cases r with
  | publish m =>
      by_cases hqos : m.qos = .atMostOnce
      · simp only [packetOf, if_pos hqos]
        refine ⟨core.ids, rfl, rfl, rfl, rfl, ?_⟩
        intro hawaits
        exact absurd hqos (of_decide_eq_true hawaits)
      · simp only [packetOf, if_neg hqos]
        refine ⟨_, rfl, rfl, rfl, rfl, fun _ => ?_⟩
        exact if_neg hqos
  | subscribe topic qos => exact ⟨_, rfl, rfl, rfl, rfl, fun _ => rfl⟩
  | unsubscribe topic => exact ⟨_, rfl, rfl, rfl, rfl, fun _ => rfl⟩

/-- Accepting a request puts its packet at the end of the queue. -/
theorem accept_cases (core : Core) (r : Request) :
    ∃ p ids, core.accept r = ({ core with ids, pending := core.pending ++ [p] }, [.queued p]) ∧
      p.isRequest = true ∧ p.request? = some r.bare ∧ p.fresh = p ∧
      (p.awaitsAnswer = true → p.packetId? = some (core.ids.next core.isIdTaken).1) := by
  obtain ⟨ids, hcore, hrest⟩ := packetOf_cases core r
  refine ⟨(core.packetOf r).1, ids, ?_, hrest⟩
  show ((core.packetOf r).2.enqueue (core.packetOf r).1, [Event.queued (core.packetOf r).1]) = _
  rw [hcore]
  rfl

/-- A packet that was written is tracked at the end of the session, unless
it needs no answer, or its key is open. -/
theorem noteWritten_cases (core : Core) (p : Packet) :
    (p.awaitsAnswer = true ∧ ∃ key, ExchangeKey.ofPacket? p = some key ∧
      key ∉ Exchange.keys core.session.sent ∧
      core.noteWritten p = ({ core with
        session := { core.session with sent := core.session.sent ++ [⟨key, p⟩] } }, [])) ∨
    (p.awaitsAnswer = false ∧ core.noteWritten p = (core, [])) ∨
    (p.awaitsAnswer = true ∧
      (∀ key, ExchangeKey.ofPacket? p = some key → key ∈ Exchange.keys core.session.sent) ∧
      ∃ reason, core.noteWritten p = (core, [.untracked p reason])) := by
  unfold noteWritten
  by_cases hawaits : p.awaitsAnswer = true
  · rw [if_pos hawaits]
    unfold trackSent
    rcases core.session.trackSent_cases p with
      ⟨-, key, hkey, hfree, htrack⟩ | ⟨hopen, reason, htrack⟩
    · exact Or.inl ⟨hawaits, key, hkey, hfree, by rw [htrack]⟩
    · exact Or.inr (Or.inr ⟨hawaits, hopen hawaits, reason, by rw [htrack]⟩)
  · rw [if_neg hawaits]
    exact Or.inr (Or.inl ⟨Bool.eq_false_iff.mpr hawaits, rfl⟩)

/-- Tracking tells at most why it failed. -/
theorem eq_untracked_of_noteWritten {core : Core} {p : Packet} {e : Event}
    (he : e ∈ (core.noteWritten p).2) : ∃ reason, e = .untracked p reason := by
  rcases noteWritten_cases core p with
    ⟨-, key, -, -, hnote⟩ | ⟨-, hnote⟩ | ⟨-, -, reason, hnote⟩ <;> rw [hnote] at he
  · cases he
  · cases he
  · exact ⟨reason, List.mem_singleton.mp he⟩

/-- Routing looks at the session, the queue and the keep-alive only. -/
theorem route_frame (core : Core) (p : Packet) :
    (core.route p).core.inbox = core.inbox ∧ (core.route p).core.ids = core.ids ∧
      (core.route p).core.settings = core.settings := by
  -- Every packet but PUBLISH and PUBREC says so at once; these two track.
  have hsent : ∀ (c : Core) (q : Packet), (c.trackSent q).1.inbox = c.inbox ∧
      (c.trackSent q).1.ids = c.ids ∧ (c.trackSent q).1.settings = c.settings := by
    intro c q
    unfold trackSent
    split <;> exact ⟨rfl, rfl, rfl⟩
  have hreceived : ∀ (c : Core) (q : Packet), (c.trackReceived q).inbox = c.inbox ∧
      (c.trackReceived q).ids = c.ids ∧ (c.trackReceived q).settings = c.settings := by
    intro c q
    unfold trackReceived
    split <;> exact ⟨rfl, rfl, rfl⟩
  cases p with
  | publish m =>
      simp only [route, routePublish]
      split
      · exact ⟨rfl, rfl, rfl⟩
      · exact ⟨rfl, rfl, rfl⟩
      · exact hreceived core (.publish m)
  | pubRec packetId =>
      simp only [route, routePubRec]
      split
      · exact ⟨rfl, rfl, rfl⟩
      · next m session heq =>
          obtain ⟨h₁, h₂, h₃⟩ := hsent { core with session } (.publish m)
          obtain ⟨h₄, h₅, h₆⟩ :=
            hreceived ({ core with session }.trackSent (.publish m)).1 (.pubRec packetId)
          exact ⟨h₄.trans h₁, h₅.trans h₂, h₆.trans h₃⟩
  | _ => exact ⟨rfl, rfl, rfl⟩

/-- Opening an exchange on the receiving side leaves requests alone. -/
theorem trackReceived_sent (core : Core) (p : Packet) :
    (core.trackReceived p).session.sent = core.session.sent ∧
      (core.trackReceived p).pending = core.pending := by
  unfold trackReceived
  rcases core.session.trackReceived_cases p with
    ⟨-, key, -, -, htrack⟩ | ⟨-, reason, htrack⟩
  · rw [htrack]
    exact ⟨rfl, rfl⟩
  · rw [htrack]
    exact ⟨rfl, rfl⟩

/-- PUBREC moves the PUBLISH under its identifier to the end of the session, and its
PUBREL is queued. Without one nothing happens. -/
theorem route_pubRec_cases {core : Core} (h : core.session.WellFormed) (packetId : UInt16) :
    (∃ front m back, core.session.sent = front ++ ⟨⟨.publish, packetId⟩, .publish m⟩ :: back ∧
      (core.route (.pubRec packetId)).core.session.sent
        = front ++ back ++ [⟨⟨.publish, packetId⟩, .publish m⟩] ∧
      (core.route (.pubRec packetId)).core.pending = core.pending ++ [.pubRel packetId] ∧
      (core.route (.pubRec packetId)).events = [] ∧
      (core.route (.pubRec packetId)).notice = none) ∨
    (⟨.publish, packetId⟩ ∉ Exchange.keys core.session.sent ∧
      core.route (.pubRec packetId) = ⟨core, [], none⟩) := by
  rcases Session.takeSentPublish_cases h packetId with
    ⟨front, m, back, hfound, htake⟩ | ⟨hnone, htake⟩
  · have hkey := h.sent_keyed _ (mem_cut hfound)
    have hfree := Exchange.key_not_mem_cut h.sent_nodup hfound
    -- Its exchange was cut out, so the key of the PUBLISH is free again.
    have htrack : Core.trackSent
        { core with session := { core.session with sent := front ++ back } } (.publish m)
        = ({ core with session := { core.session with
            sent := front ++ back ++ [⟨⟨.publish, packetId⟩, .publish m⟩] } }, []) := by
      unfold trackSent
      rcases Session.trackSent_cases { core.session with sent := front ++ back }
        (.publish m) with ⟨-, key, hkey', -, hok⟩ | ⟨hopen, -⟩
      · obtain rfl := Option.some.inj (hkey.symm.trans hkey')
        rw [hok]
      · exact absurd (hopen (h.sent_awaits _ (mem_cut hfound)) _ hkey) hfree
    obtain ⟨hsent, hpending⟩ := trackReceived_sent { core with session := { core.session with
      sent := front ++ back ++ [⟨⟨.publish, packetId⟩, .publish m⟩] } } (.pubRec packetId)
    have hroute : core.route (.pubRec packetId) = ⟨(Core.trackReceived { core with session :=
        { core.session with sent := front ++ back ++ [⟨⟨.publish, packetId⟩, .publish m⟩] } }
          (.pubRec packetId)).enqueue (.pubRel packetId), [], none⟩ := by
      simp only [route, routePubRec, htake, htrack]
    rw [hroute]
    exact Or.inl ⟨front, m, back, hfound, hsent,
      congrArg (· ++ [Packet.pubRel packetId]) hpending, rfl, rfl⟩
  · exact Or.inr ⟨hnone, by simp only [route, routePubRec, htake]⟩

/-- What routing a packet does to requests. -/
inductive Routing (core : Core) (p : Packet) (routed : Routed) : Prop where
  /-- It leaves them alone, and at most queues an answer. -/
  | answer (answers : List Packet) (hanswers : ∀ a ∈ answers, a.isRequest = false)
      (hsent : routed.core.session.sent = core.session.sent)
      (hpending : routed.core.pending = core.pending ++ answers)
      (hevents : routed.events = [])
      (hnotice : ∀ n ∈ routed.notice, n.request? = none)
  /-- It completes one that the packet acknowledges. -/
  | complete (front back : List Exchange) (e : Exchange) (n : Notice)
      (hfound : core.session.sent = front ++ e :: back)
      (hsent : routed.core.session.sent = front ++ back)
      (hpending : routed.core.pending = core.pending)
      (hevents : routed.events = [])
      (hnotice : routed.notice = some n) (hrequest : n.request? = some e.packet)
      (hacknowledges : p.acknowledges e.packet = true)
  /-- A PUBREC moves its PUBLISH to the end of the session, and queues the PUBREL. -/
  | release (front back : List Exchange) (e : Exchange) (packetId : UInt16)
      (hfound : core.session.sent = front ++ e :: back)
      (hkey : e.key = ⟨.publish, packetId⟩)
      (hsent : routed.core.session.sent = front ++ back ++ [e])
      (hpending : routed.core.pending = core.pending ++ [.pubRel packetId])
      (hevents : routed.events = [])
      (hnotice : routed.notice = none)
      (hrec : p = .pubRec packetId)

/-- Routing that changes neither the sent exchanges nor the queue. -/
theorem Routing.none {core : Core} {p : Packet} {routed : Routed}
    (hsent : routed.core.session.sent = core.session.sent)
    (hpending : routed.core.pending = core.pending) (hevents : routed.events = [])
    (hnotice : ∀ n ∈ routed.notice, n.request? = Option.none) : Routing core p routed :=
  .answer [] (by simp) hsent (by rw [hpending, List.append_nil]) hevents hnotice

/-- Routing a packet does one of three things to requests. -/
theorem route_cases {core : Core} (h : core.session.WellFormed) (p : Packet) :
    Routing core p (core.route p) := by
  cases p with
  | publish m =>
      simp only [route, routePublish]
      split
      · exact .none rfl rfl rfl (by simp [Notice.request?])
      · exact .answer [.pubAck m.packetId] (by simp [Packet.isRequest]) rfl rfl rfl
          (by simp [Notice.request?])
      · obtain ⟨hsent, hpending⟩ := trackReceived_sent core (.publish m)
        refine .answer [.pubRec m.packetId] (by simp [Packet.isRequest]) hsent ?_ rfl (by simp)
        show (core.trackReceived (.publish m)).pending ++ _ = _
        rw [hpending]
  | pubAck packetId =>
      rcases Session.takeSentPublish_cases h packetId with
        ⟨front, m, back, hfound, htake⟩ | ⟨-, htake⟩
      · have hid := Exchange.packetId?_of_mem h.sent_keyed (mem_cut hfound)
        simp only [route, htake]
        exact .complete front back _ (.deliveryCompleted m) hfound rfl rfl rfl rfl rfl
          (decide_eq_true (Packet.packetId?_publish hid).2)
      · simp only [route, htake]
        exact .none rfl rfl rfl (by simp)
  | pubRec packetId =>
      rcases route_pubRec_cases h packetId with
        ⟨front, m, back, hfound, hsent, hpending, hevents, hnotice⟩ | ⟨-, hnone⟩
      · exact .release front back _ packetId hfound rfl hsent hpending hevents hnotice rfl
      · rw [hnone]
        exact .none rfl rfl rfl (by simp)
  | pubRel packetId =>
      -- PUBCOMP is queued whether a message was held or not.
      have hanswer : ∀ found session,
          core.session.takeReceivedPublish packetId = (found, session) →
          session.sent = core.session.sent →
          Routing core (.pubRel packetId) (core.route (.pubRel packetId)) := by
        intro found session htake hsent
        simp only [route, htake]
        exact .answer [.pubComp packetId] (by simp [Packet.isRequest]) hsent rfl rfl
          (by cases found <;> simp [Notice.request?])
      rcases Session.takeReceivedPublish_cases h packetId with
        ⟨front, m, back, -, htake⟩ | ⟨-, htake⟩
      · exact hanswer _ _ htake rfl
      · exact hanswer _ _ htake rfl
  | pubComp packetId =>
      -- The PUBREC is taken first, which is nothing to requests.
      have hcomplete : ∀ found session,
          core.session.takeReceivedPubRec packetId = (found, session) →
          session.WellFormed → session.sent = core.session.sent →
          Routing core (.pubComp packetId) (core.route (.pubComp packetId)) := by
        intro found session hmark hw hsent
        rcases Session.takeSentPublish_cases hw packetId with
          ⟨front, m, back, hfound, htake⟩ | ⟨-, htake⟩
        · have hid := Exchange.packetId?_of_mem hw.sent_keyed (mem_cut hfound)
          simp only [route, hmark, htake]
          exact .complete front back _ (.deliveryCompleted m) (hsent.symm.trans hfound) rfl rfl
            rfl rfl rfl (decide_eq_true (Packet.packetId?_publish hid).2)
        · simp only [route, hmark, htake]
          exact .none hsent rfl rfl (by simp)
      rcases Session.takeReceivedPubRec_cases h packetId with
        ⟨front, e, back, hfound, -, hmark⟩ | ⟨-, hmark⟩
      · exact hcomplete _ _ hmark (Session.wellFormed_of_sublist h (List.Sublist.refl _)
          (sublist_cut hfound)) rfl
      · exact hcomplete _ _ hmark h rfl
  | subAck packetId granted =>
      rcases Session.takeSentSubscribe_cases h packetId with
        ⟨front, r, back, hfound, htake⟩ | ⟨-, htake⟩
      · have hid := Exchange.packetId?_of_mem h.sent_keyed (mem_cut hfound)
        simp only [route, htake]
        exact .complete front back _ (.subscribeCompleted r granted) hfound rfl rfl rfl rfl rfl
          (decide_eq_true (Option.some.inj hid))
      · simp only [route, htake]
        exact .none rfl rfl rfl (by simp)
  | unsubAck packetId =>
      rcases Session.takeSentUnsubscribe_cases h packetId with
        ⟨front, r, back, hfound, htake⟩ | ⟨-, htake⟩
      · have hid := Exchange.packetId?_of_mem h.sent_keyed (mem_cut hfound)
        simp only [route, htake]
        exact .complete front back _ (.unsubscribeCompleted r) hfound rfl rfl rfl rfl rfl
          (decide_eq_true (Option.some.inj hid))
      · simp only [route, htake]
        exact .none rfl rfl rfl (by simp)
  | _ => exact .none rfl rfl rfl (by simp [route])

/-- Routing a packet keeps a tracked request, unless the packet acknowledges
it; then the request is completed. -/
theorem route_keeps {core : Core} (h : core.session.WellFormed) (p : Packet) {e : Exchange}
    (he : e ∈ core.session.sent) :
    e ∈ (core.route p).core.session.sent ∨
    (p.acknowledges e.packet = true ∧
      ∃ n, (core.route p).notice = some n ∧ n.request? = some e.packet) := by
  cases route_cases h p with
  | answer answers hanswers hsent =>
      rw [hsent]
      exact Or.inl he
  | complete front back e' n hfound hsent hpending hevents hnotice hrequest hacknowledges =>
      rw [hfound, List.mem_append, List.mem_cons] at he
      rw [hsent, List.mem_append]
      rcases he with he | rfl | he
      · exact Or.inl (Or.inl he)
      · exact Or.inr ⟨hacknowledges, n, hnotice, hrequest⟩
      · exact Or.inl (Or.inr he)
  | release front back e' packetId hfound hkey hsent =>
      -- The one that moves to the end is still there.
      rw [hfound] at he
      rw [hsent, List.append_assoc]
      exact Or.inl ((List.perm_append_singleton e' back).symm.append_left front |>.mem_iff.mp he)

/-- Routing a packet never fails to track anything. -/
theorem route_events {core : Core} (h : core.session.WellFormed) (p : Packet) :
    (core.route p).events = [] := by
  cases route_cases h p with
  | answer answers hanswers hsent hpending hevents hnotice => exact hevents
  | complete front back e n hfound hsent hpending hevents => exact hevents
  | release front back e packetId hfound hkey hsent hpending hevents => exact hevents

/-- A clean connection keeps the requests of the queue, and forgets the session. -/
theorem resume_clean (core : Core) (now : Nat) (h : core.settings.cleanSession = true) :
    core.resume now
      = ({ core with
            pending := core.pending.filter Packet.isRequest, session := .empty,
            keepAlive := core.keepAlive.restart now },
          [.established (some core.session)]) :=
  if_pos h

/-- Any other connection puts what the session redelivers in front of them. -/
theorem resume_kept (core : Core) (now : Nat) (h : core.settings.cleanSession = false) :
    core.resume now
      = ({ core with
            pending := core.session.redeliver.1 ++ core.pending.filter Packet.isRequest,
            session := core.session.redeliver.2,
            keepAlive := core.keepAlive.restart now },
          [.established none]) :=
  if_neg (Bool.eq_false_iff.mp h)

/-- A connection tells what it forgets. -/
theorem resume_events (core : Core) (now : Nat) :
    ∃ forgotten, (core.resume now).2 = [.established forgotten] := by
  unfold resume
  split
  · exact ⟨_, rfl⟩
  · exact ⟨_, rfl⟩

/-! ### What a move does -/

/-- What a move does to a core whose session is well-formed, and the events
that it leaves. -/
inductive Effect : (connecting : Bool) → Core → List Event → Core → Prop where
  | aside {connecting : Bool} {core core' : Core} {events : List Event}
      (hbooks : core'.books = core.books) (haside : ∀ e ∈ events, e.isAside = true)
      (htried : ∀ p failure, .wrote p failure ∈ events → p.isRequest = true → p ∈ core.pending) :
      Effect connecting core events core'
  | ask {connecting : Bool} (core : Core) (r : Request) :
      Effect connecting core [.accepted r] { core with inbox := core.inbox ++ [r] }
  | queue {connecting : Bool} {core : Core} {r : Request} {inbox : List Request} {p : Packet}
      {ids : IdAllocator} (hinbox : core.inbox = r :: inbox) (hrequest : p.request? = some r.bare)
      (hfresh : p.fresh = p)
      (hid : p.awaitsAnswer = true → p.packetId? = some (core.ids.next core.isIdTaken).1) :
      Effect connecting core [.queued p]
        { core with inbox, ids, pending := core.pending ++ [p] }
  /-- A packet that was written is tracked. -/
  | track {connecting : Bool} {core : Core} {front back : List Packet} {p : Packet}
      {key : ExchangeKey} (hpending : core.pending = front ++ p :: back)
      (hawaits : p.awaitsAnswer = true) (hkey : ExchangeKey.ofPacket? p = some key)
      (hfree : key ∉ Exchange.keys core.session.sent) :
      Effect connecting core [.wrote p none]
        { core with
          pending := front ++ back
          session := { core.session with sent := core.session.sent ++ [⟨key, p⟩] } }
  /-- A packet that was written needs no answer. -/
  | drop {connecting : Bool} {core : Core} {front back : List Packet} {p : Packet}
      (hpending : core.pending = front ++ p :: back) (hawaits : p.awaitsAnswer = false) :
      Effect connecting core [.wrote p none] { core with pending := front ++ back }
  /-- A packet that was written cannot be tracked, because its key is open. -/
  | refuse {connecting : Bool} {core : Core} {front back : List Packet} {p : Packet}
      {reason : TrackingError} (hpending : core.pending = front ++ p :: back)
      (hawaits : p.awaitsAnswer = true)
      (hopen : ∀ key, ExchangeKey.ofPacket? p = some key → key ∈ Exchange.keys core.session.sent) :
      Effect connecting core [.wrote p none, .untracked p reason]
        { core with pending := front ++ back }
  | route {connecting : Bool} {core : Core} (p : Packet) (handler : Option Handler)
      (hrouting : Routing core p (core.route p)) :
      Effect connecting core
        (.received p :: (core.route p).notice.toList.map (.notified · handler))
        (core.route p).core
  /-- A clean connection forgets the session. -/
  | forget {core : Core} (now : Nat) (hclean : core.settings.cleanSession = true) :
      Effect true core [.established (some core.session)]
        { core with
          pending := core.pending.filter Packet.isRequest, session := .empty,
          keepAlive := core.keepAlive.restart now }
  /-- Any other connection puts the redelivery of the session in the queue. -/
  | redeliver {core : Core} (now : Nat) (hkept : core.settings.cleanSession = false) :
      Effect true core [.established none]
        { core with
          pending := core.session.redeliver.1 ++ core.pending.filter Packet.isRequest,
          session := core.session.redeliver.2,
          keepAlive := core.keepAlive.restart now }

/-- Every move does one of these things. -/
theorem Move.effect {connecting : Bool} {core core' : Core} {events : List Event}
    (hmove : Move connecting core events core') (h : core.session.WellFormed) :
    Effect connecting core events core' := by
  cases hmove with
  | aside hbooks haside htried => exact .aside hbooks haside htried
  | ask _ r => exact .ask core r
  | @queue _ _ r inbox hinbox =>
      obtain ⟨p, ids, haccept, -, hrequest, hfresh, hid⟩ := accept_cases { core with inbox } r
      rw [haccept]
      exact .queue hinbox hrequest hfresh hid
  | @write _ _ front back p hpending =>
      -- Tracked, of a kind that is not tracked, or refused because its key is taken.
      rcases noteWritten_cases { core with pending := front ++ back } p with
        ⟨hawaits, key, hkey, hfree, hnote⟩ | ⟨hawaits, hnote⟩ | ⟨hawaits, hopen, reason, hnote⟩ <;>
        rw [hnote]
      · exact .track hpending hawaits hkey hfree
      · exact .drop hpending hawaits
      · exact .refuse hpending hawaits hopen
  | route _ p handler =>
      rw [route_events h p]
      exact .route p handler (route_cases h p)
  | resume _ now =>
      cases hclean : core.settings.cleanSession with
      | true =>
          rw [resume_clean core now hclean]
          exact .forget now hclean
      | false =>
          rw [resume_kept core now hclean]
          exact .redeliver now hclean

/-! ### The session stays well-formed -/

/-- Tracking what was written keeps the session well-formed, and so does failing to
track it. -/
theorem wellFormed_noteWritten {core : Core} (h : core.session.WellFormed) (p : Packet) :
    (core.noteWritten p).1.session.WellFormed := by
  unfold noteWritten trackSent
  split
  · split
    · next session htrack => exact Session.wellFormed_trackSent h htrack
    · exact h
  · exact h

/-- So does tracking what was received. -/
theorem wellFormed_trackReceived {core : Core} (h : core.session.WellFormed) (p : Packet) :
    (core.trackReceived p).session.WellFormed := by
  unfold trackReceived
  split
  · next session htrack => exact Session.wellFormed_trackReceived h htrack
  · exact h

/-- Routing takes exchanges away, and tracks others under free keys. -/
theorem wellFormed_route {core : Core} (h : core.session.WellFormed) (p : Packet) :
    (core.route p).core.session.WellFormed := by
  cases p with
  | publish m =>
      simp only [route, routePublish]
      split
      · exact h
      · exact h
      · exact wellFormed_trackReceived h (.publish m)
  | pubAck packetId => exact Session.wellFormed_takeSentPublish h packetId
  | pubRec packetId =>
      -- What was taken is tracked again, or tracking it fails; then the
      -- PUBREC is tracked.
      have htaken := Session.wellFormed_takeSentPublish h packetId
      simp only [route, routePubRec]
      split
      · next session heq =>
          rw [heq] at htaken
          exact htaken
      · next m session heq =>
          rw [heq] at htaken
          refine wellFormed_trackReceived ?_ (.pubRec packetId)
          unfold trackSent
          split
          · next tracked htrack => exact Session.wellFormed_trackSent htaken htrack
          · exact htaken
  | pubRel packetId => exact Session.wellFormed_takeReceivedPublish h packetId
  | pubComp packetId =>
      exact Session.wellFormed_takeSentPublish
        (Session.wellFormed_takeReceivedPubRec h packetId) packetId
  | subAck packetId granted => exact Session.wellFormed_takeSentSubscribe h packetId
  | unsubAck packetId => exact Session.wellFormed_takeSentUnsubscribe h packetId
  | _ => exact h

/-- A connection forgets the session, or takes out what is to be written again. -/
theorem wellFormed_resume {core : Core} (h : core.session.WellFormed) (now : Nat) :
    (core.resume now).1.session.WellFormed := by
  cases hclean : core.settings.cleanSession with
  | true =>
      rw [resume_clean core now hclean]
      exact Session.wellFormed_empty
  | false =>
      rw [resume_kept core now hclean]
      exact Session.wellFormed_redeliver h

/-- Every move keeps the session well-formed. Most of them leave it alone. -/
theorem wellFormed_move {connecting : Bool} {core core' : Core} {events : List Event}
    (h : core.session.WellFormed) (hmove : Move connecting core events core') :
    core'.session.WellFormed := by
  cases hmove with
  | aside hbooks haside =>
      rw [show core'.session = core.session from congrArg Books.session hbooks]
      exact h
  | ask => exact h
  | @queue _ _ r inbox hinbox =>
      obtain ⟨p, ids, haccept, -⟩ := accept_cases { core with inbox } r
      rw [haccept]
      exact h
  | @write _ _ front back p hpending =>
      rw [noteWritten_withPending]
      exact wellFormed_noteWritten h p
  | route _ p => exact wellFormed_route h p
  | resume _ now => exact wellFormed_resume h now

/-- Moves keep the session well-formed. -/
theorem wellFormed_moves {connecting : Bool} {start core : Core} {log : List Event}
    (h : start.session.WellFormed) (hmoves : Moves connecting start log core) :
    core.session.WellFormed := by
  induction hmoves with
  | refl => exact h
  | snoc _ hmove ih => exact wellFormed_move ih hmove

/-! ### What moves never change -/

/-- No move changes the settings. -/
theorem settings_move {connecting : Bool} {core core' : Core} {events : List Event}
    (hmove : Move connecting core events core') : core'.settings = core.settings := by
  cases hmove with
  | aside hbooks haside => exact congrArg Books.settings hbooks
  | ask => rfl
  | @queue _ _ r inbox hinbox =>
      obtain ⟨p, ids, haccept, -⟩ := accept_cases { core with inbox } r
      rw [haccept]
  | @write _ _ front back p hpending =>
      rcases noteWritten_cases { core with pending := front ++ back } p with
        ⟨-, key, -, -, hnote⟩ | ⟨-, hnote⟩ | ⟨-, -, reason, hnote⟩ <;> rw [hnote]
  | route _ p => exact (route_frame core p).2.2
  | resume _ now =>
      unfold resume
      dsimp only
      split <;> rfl

/-- Moves keep the settings. -/
theorem settings_moves {connecting : Bool} {start core : Core} {log : List Event}
    (hmoves : Moves connecting start log core) : core.settings = start.settings := by
  induction hmoves with
  | refl => rfl
  | snoc _ hmove ih => exact (settings_move hmove).trans ih

/-- So a session that is not clean stays so. -/
theorem cleanSession_moves {connecting : Bool} {start core : Core} {log : List Event}
    (hmoves : Moves connecting start log core) (hkept : start.settings.cleanSession = false) :
    core.settings.cleanSession = false := by
  rw [settings_moves hmoves]
  exact hkept

/-- Only a connection that is made can forget requests. -/
theorem forgotten_move {core core' : Core} {events : List Event} (h : core.session.WellFormed)
    (hmove : Move false core events core') : Log.forgotten events = [] := by
  cases hmove.effect h with
  | aside hbooks haside => exact (Log.of_isAside haside).2.2.2
  | ask _ r => rfl
  | queue hinbox => rfl
  | track hpending => rfl
  | drop hpending => rfl
  | refuse hpending => rfl
  | route p handler hrouting => cases (core.route p).notice <;> rfl

/-- Only a connection forgets anything. -/
theorem forgotten_moves {start core : Core} {log : List Event} (h : start.session.WellFormed)
    (hmoves : Moves false start log core) : Log.forgotten log = [] := by
  induction hmoves with
  | refl => rfl
  | snoc hmoves hmove ih =>
      rw [Log.forgotten_append, ih, forgotten_move (wellFormed_moves h hmoves) hmove]
      rfl

end Core

end Mqtt
