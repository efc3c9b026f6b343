import Mqtt.Proofs.Client.Receipt
import Mqtt.Proofs.Client.Snapshot

/-!
# `Mqtt.Proofs.Client.Released`: a released message is not sent again

After its PUBREC a message is the server's. The client keeps it in the session
with the PUBREC, writes PUBREL for it on every connection, and hands nothing
else to the transport under its identifier until PUBACK or PUBCOMP completes
it. From then on the identifier is free, and what is written under it was
queued later.

* `Core.pending_of_wrote`: a request that is handed to the transport is one of
  the queue.
* `Core.released_moves`: where a message is since its PUBREC (`Core.Released`).
* `Client.released_not_rewritten`: what it says of runs.
-/

set_option autoImplicit false

namespace Mqtt

namespace Log

/-- Whether no request is handed to the transport under an identifier. -/
def Silent (i : UInt16) (log : List Event) : Prop :=
  ∀ p failure, Event.wrote p failure ∈ log → p.isRequest = true → p.packetId? ≠ some i

/-- Whether every request that is handed to the transport under an identifier was
queued before, in the same log. -/
def Anew (i : UInt16) : List Event → Prop :=
  Always fun before e => ∀ p failure, e = .wrote p failure → p.isRequest = true →
    p.packetId? = some i → Event.queued p.fresh ∈ before

/-- Logs in a row are silent about an identifier if each is. -/
theorem Silent.append {i : UInt16} {log events : List Event} (h : Silent i log)
    (h' : Silent i events) : Silent i (log ++ events) := by
  intro p failure hmem
  exact (List.mem_append.mp hmem).elim (h p failure) (h' p failure)

end Log

namespace Session

/-- PUBREL is written for a PUBLISH under its own identifier only. -/
theorem key_of_redelivery {s : Session} (h : s.WellFormed) {e : Exchange} (he : e ∈ s.sent)
    {i : UInt16} (hrel : s.redelivery e = .pubRel i) : e.key = ⟨.publish, i⟩ := by
  obtain ⟨hkind, -⟩ := ExchangeKey.ofPacket?_eq_some_iff.mp (h.sent_keyed e he)
  have hawaits := h.sent_awaits e he
  obtain ⟨⟨kind, j⟩, p⟩ := e
  cases p with
  | publish m =>
      simp only [redelivery] at hrel
      split at hrel
      · obtain rfl := Packet.pubRel.inj hrel
        exact congrArg (ExchangeKey.mk · j) hkind.symm
      · cases hrel
  | subscribe r => cases hrel
  | unsubscribe r => cases hrel
  | _ => cases hawaits

/-- A new connection writes one PUBREL for a released PUBLISH. -/
theorem count_redelivery {s : Session} (h : s.WellFormed) {i : UInt16} {m : Message}
    (hm : ⟨⟨.publish, i⟩, .publish m⟩ ∈ s.sent) (hreleased : s.isReleased i = true) :
    (s.sent.map s.redelivery).count (.pubRel i) = 1 := by
  obtain ⟨front, back, hsent⟩ := List.append_of_mem hm
  have hrel : s.redelivery ⟨⟨.publish, i⟩, .publish m⟩ = .pubRel i := if_pos hreleased
  -- No other exchange has the key that PUBREL stands for.
  have hnone : ((front ++ back).map s.redelivery).count (.pubRel i) = 0 := by
    rw [List.count_eq_zero, List.mem_map]
    rintro ⟨e, he, hrel'⟩
    have hkey := key_of_redelivery h ((sublist_cut hsent).subset he) hrel'
    have hfree := Exchange.key_not_mem_cut h.sent_nodup hsent
    exact hfree (List.mem_map.mpr ⟨e, he, hkey⟩)
  rw [List.map_append, List.count_append] at hnone
  rw [hsent, List.map_append, List.map_cons, List.count_append, hrel, List.count_cons_self]
  omega

end Session

namespace Core

/-- A request that is handed to the transport is one of the queue. -/
theorem pending_of_wrote {connecting : Bool} {core core' : Core} {events : List Event}
    (h : core.session.WellFormed) (hmove : Move connecting core events core') {p : Packet}
    {failure : Option ClientError} (hwrote : Event.wrote p failure ∈ events)
    (hrequest : p.isRequest = true) : p ∈ core.pending := by
  have hcut : ∀ {front back : List Packet} {q : Packet}, core.pending = front ++ q :: back →
      p = q ∧ failure = none → p ∈ core.pending := by
    rintro front back q hpending ⟨rfl, -⟩
    exact mem_cut hpending
  cases hmove.effect h with
  | aside hbooks haside htried => exact htried p failure hwrote hrequest
  | track hpending => exact hcut hpending (by simpa using hwrote)
  | drop hpending => exact hcut hpending (by simpa using hwrote)
  | refuse hpending => exact hcut hpending (by simpa using hwrote)
  | _ => simp at hwrote

/-- PUBCOMP takes the PUBLISH under its identifier out of the session. -/
theorem not_tracked_of_pubComp {core : Core} (h : core.session.WellFormed) {i : UInt16}
    {m : Message} (hm : ⟨⟨.publish, i⟩, .publish m⟩ ∈ core.session.sent) :
    ⟨⟨.publish, i⟩, .publish m⟩ ∉ (core.route (.pubComp i)).core.session.sent := by
  -- The mark is taken first, which leaves the sent exchanges alone.
  have htaken : ∀ s : Session, s.WellFormed → s.sent = core.session.sent →
      ⟨⟨.publish, i⟩, .publish m⟩ ∉ (s.takeSentPublish i).2.sent := by
    intro s hs hsent hmem
    rw [← hsent] at hm
    rcases Session.takeSentPublish_cases hs i with
      ⟨front, m', back, hfound, htake⟩ | ⟨hnone, -⟩
    · rw [htake] at hmem
      exact Exchange.key_not_mem_cut hs.sent_nodup hfound (List.mem_map.mpr ⟨_, hmem, rfl⟩)
    · exact hnone (List.mem_map_of_mem hm)
  exact htaken _ (Session.wellFormed_takeReceivedPubRec h i) rfl

/-- A packet that comes in is routed. -/
theorem eq_route_of_received {connecting : Bool} {core core' : Core} {events : List Event}
    (h : core.session.WellFormed) (hmove : Move connecting core events core') {p : Packet}
    (hmem : Event.received p ∈ events) : core' = (core.route p).core := by
  cases hmove.effect h with
  | aside hbooks haside => cases haside _ hmem
  | route q handler hrouting =>
      obtain rfl : p = q := by simpa using hmem
      rfl
  | _ => simp at hmem

/-- A message that has its PUBREC keeps it while it is tracked. -/
theorem isReleased_of_tracked {connecting : Bool} {core core' : Core} {events : List Event}
    (h : core.session.WellFormed) (hmove : Move connecting core events core') {i : UInt16}
    {m : Message} (hm : ⟨⟨.publish, i⟩, .publish m⟩ ∈ core.session.sent)
    (hm' : ⟨⟨.publish, i⟩, .publish m⟩ ∈ core'.session.sent)
    (hreleased : core.session.isReleased i = true) : core'.session.isReleased i = true := by
  -- PUBCOMP would have completed it.
  have hcomp : Event.received (.pubComp i) ∉ events := by
    intro hmem
    rw [eq_route_of_received h hmove hmem] at hm'
    exact not_tracked_of_pubComp h hm hm'
  rcases isReleased_move h hmove i with ⟨-, hempty⟩ | hmark
  · rw [hempty] at hm'
    cases hm'
  · exact hmark.mpr (Or.inl ⟨hreleased, hcomp⟩)

/-! ### Since its PUBREC -/

/-- Where a message is since its PUBREC came. -/
inductive Released (i : UInt16) (m : Message) (since : List Event) (core : Core) : Prop where
  /-- It is tracked beside the mark of the PUBREC, and nothing was written under
  its identifier. -/
  | unfinished (hm : ⟨⟨.publish, i⟩, .publish m⟩ ∈ core.session.sent)
      (hreleased : core.session.isReleased i = true) (hsilent : Log.Silent i since)
      (hopen : .publish m ∉ Log.completed since)
  /-- It was completed. What was written under its identifier, or waits for it, was
  queued after that. -/
  | finished (before after : List Event) (ack : Packet) (handler : Option Handler)
      (hsince : since
        = before ++ .received ack :: .notified (.deliveryCompleted m) handler :: after)
      (hack : ack = .pubAck i ∨ ack = .pubComp i) (hsilent : Log.Silent i before)
      (hanew : Log.Anew i after)
      (hlater : ∀ p ∈ core.inFlight, p.packetId? = some i → Event.queued p.fresh ∈ after)

/-- A move leaves a message beside its mark, or completes it. -/
theorem released_move_unfinished {connecting : Bool} {since events : List Event}
    {core core' : Core} {i : UInt16} {m : Message} (h : core.session.WellFormed)
    (hdistinct : core.Distinct) (hkept : core.settings.cleanSession = false)
    (hbalanced : Balanced core events core') (hmove : Move connecting core events core')
    (hm : ⟨⟨.publish, i⟩, .publish m⟩ ∈ core.session.sent)
    (hreleased : core.session.isReleased i = true) (hsilent : Log.Silent i since)
    (hopen : .publish m ∉ Log.completed since) : core'.Released i m (since ++ events) := by
  -- What is written waited in the queue, where no request has the identifier of a tracked
  -- message.
  have hquiet : Log.Silent i events := by
    intro p failure hwrote hrequest hid
    have hp := pending_of_wrote h hmove hwrote hrequest
    have hawaits := Packet.awaitsAnswer_of_isRequest hrequest hid
    exact packetId?_ne_of_mem_sent h hdistinct hp hawaits hm hid
  rcases tracked_of_released h hmove hm hreleased with
    ⟨hclean, -⟩ | hm' | ⟨ack, handler, hack, hevents⟩
  · cases hclean.symm.trans hkept
  -- The message stays. It was not completed either, because a completed one leaves the flight.
  · have hmark := isReleased_of_tracked h hmove hm hm' hreleased
    refine .unfinished hm' hmark (hsilent.append hquiet) ?_
    rw [Log.completed_append]
    refine List.not_mem_append hopen fun hmem => ?_
    refine hbalanced.completed_ne hdistinct ?_ _ hmem rfl
    exact List.mem_append_right _ (List.mem_map_of_mem hm')
  · -- What is in flight after the completion has another identifier.
    refine .finished since [] ack handler (by rw [hevents]) hack hsilent (Log.always_nil _) ?_
    intro p hp hpid
    have hcompleted : .publish m ∈ Log.completed events := by
      rw [hevents]
      exact List.mem_singleton.mpr rfl
    refine absurd ?_ (hbalanced.completed_ne hdistinct hp _ hcompleted)
    rw [hpid, Exchange.packetId?_of_mem h.sent_keyed hm]

/-- After the completion, what a move writes under the identifier or leaves in flight
was queued later. -/
theorem released_move_finished {connecting : Bool} {after events : List Event}
    {core core' : Core} {i : UInt16} (h : core.session.WellFormed)
    (hbalanced : Balanced core events core') (hmove : Move connecting core events core')
    (hanew : Log.Anew i after)
    (hlater : ∀ p ∈ core.inFlight, p.packetId? = some i → Event.queued p.fresh ∈ after) :
    Log.Anew i (after ++ events) ∧
      ∀ p ∈ core'.inFlight, p.packetId? = some i → Event.queued p.fresh ∈ after ++ events := by
  constructor
  · refine Log.always_append_iff.mpr ⟨hanew, ?_⟩
    rintro before' e after' hevents p failure rfl hrequest hid
    have hwrote : Event.wrote p failure ∈ events := by
      rw [hevents]
      simp
    have hp := pending_of_wrote h hmove hwrote hrequest
    -- A request that is written waited in the queue before, so the invariant knows it.
    have hflight : p ∈ core.inFlight := List.mem_append_left _
      (List.mem_filter.mpr ⟨hp, Packet.awaitsAnswer_of_isRequest hrequest hid⟩)
    exact List.mem_append_left _ (hlater p hflight hid)
  · intro p hp hid
    rcases hbalanced.inFlight_cases hp with ⟨q, hq, hfresh⟩ | hqueued
    · rw [← hfresh]
      exact List.mem_append_left _
        (hlater q hq ((Packet.packetId?_eq_of_fresh hfresh).trans hid))
    · exact List.mem_append_right _ (by rw [hqueued]; exact List.mem_singleton.mpr rfl)

/-- Every move after the PUBREC keeps the invariant. -/
theorem released_move {connecting : Bool} {since events : List Event} {core core' : Core}
    {i : UInt16} {m : Message} (h : core.session.WellFormed) (hdistinct : core.Distinct)
    (hkept : core.settings.cleanSession = false) (hbalanced : Balanced core events core')
    (hmove : Move connecting core events core') (hreleased : core.Released i m since) :
    core'.Released i m (since ++ events) := by
  cases hreleased with
  | unfinished hm hreleased hsilent hopen =>
      exact released_move_unfinished h hdistinct hkept hbalanced hmove hm hreleased hsilent hopen
  | finished before after ack handler hsince hack hsilent hanew hlater =>
      obtain ⟨hanew', hlater'⟩ := released_move_finished h hbalanced hmove hanew hlater
      refine .finished before (after ++ events) ack handler ?_ hack hsilent hanew' hlater'
      rw [hsince, List.append_assoc, List.cons_append, List.cons_append]

/-- Along a chain of moves that starts with the PUBREC the invariant is kept, if no
connection is clean and there is room. -/
theorem released_moves {connecting : Bool} {start core : Core} {log : List Event} {i : UInt16}
    {m : Message} (h : start.Identified) (hkept : start.settings.cleanSession = false)
    (hm : ⟨⟨.publish, i⟩, .publish m⟩ ∈ start.session.sent)
    (hmoves : Moves connecting start log core)
    (hroomy : Log.RoomyAfter start.inFlight.length log) :
    (log = [] → ⟨⟨.publish, i⟩, .publish m⟩ ∈ core.session.sent) ∧
      ∀ since, log = .received (.pubRec i) :: since → core.Released i m since := by
  induction hmoves with
  | refl =>
      refine ⟨fun _ => hm, ?_⟩
      intro since hlog
      cases hlog
  | @snoc core core' log events hmoves hmove ih =>
      have hbefore := (Log.always_append_iff.mp hroomy).1
      obtain ⟨hquiet, hsince⟩ := ih hbefore
      have htallied := tallied_moves h hmoves hbefore
      have hwell := htallied.identified.wellFormed
      have hkept' := cleanSession_moves hmoves hkept
      constructor
      · intro hnone
        obtain ⟨hlog, hevents⟩ := List.append_eq_nil_iff.mp hnone
        rcases tracked_move hwell hkept' hmove (hquiet hlog) with hm' | hmem | ⟨hmem, -⟩
        · exact hm'
        · rw [hevents] at hmem
          cases hmem
        · rw [hevents] at hmem
          cases hmem
      · intro since hlog
        cases log with
        | nil =>
            -- The PUBREC comes with this move.
            rw [List.nil_append] at hlog
            rw [hlog] at hmove
            obtain ⟨rfl, hm', hreleased⟩ := released_of_pubRec hwell hmove (hquiet rfl)
            exact .unfinished hm' hreleased (by simp [Log.Silent]) (by simp [Log.completed])
        | cons e rest =>
            obtain ⟨rfl, rfl⟩ := List.cons.inj hlog
            exact released_move hwell htallied.identified.distinct hkept'
              (htallied.balanced hmove hroomy) hmove (hsince rest rfl)

end Core

namespace Client

/-- After a PUBREC came for a tracked message, in any run that starts with an empty
session, makes no clean connection, and leaves a free identifier whenever one
is needed. Until PUBACK or PUBCOMP completes the message, it is tracked
beside its PUBREC, no request is handed to the transport under its
identifier, and a connection queues one PUBREL for it. After that, what is
handed to the transport under its identifier, or waits for it, was queued later. -/
theorem released_not_rewritten (settings : Settings) (link : Link) (as later : List Action)
    (hkept : settings.cleanSession = false)
    (hroomy : Log.Roomy ((new settings .empty link).run (as ++ later)).2) {core : Core}
    (hcore : ((new settings .empty link).run as).1.loop.core? = some core) {i : UInt16}
    {m : Message} (hm : ⟨⟨.publish, i⟩, .publish m⟩ ∈ core.session.sent) {since : List Event}
    (hlater : (((new settings .empty link).run as).1.run later).2
      = .received (.pubRec i) :: since) :
    (Log.Silent i since ∧ .publish m ∉ Log.completed since ∧
      ∀ core', ((new settings .empty link).run (as ++ later)).1.loop.core? = some core' →
        ⟨⟨.publish, i⟩, .publish m⟩ ∈ core'.session.sent ∧
        ⟨⟨.pubRec, i⟩, .pubRec i⟩ ∈ core'.session.received ∧
        ∀ opening,
          ((new settings .empty link).run (as ++ later)).1.establishes (.connect opening) = true →
          ∃ next, (((new settings .empty link).run (as ++ later)).1.connect opening).1.loop.core?
              = some next ∧ next.pending.count (.pubRel i) = 1) ∨
    ∃ before ack handler after,
      since = before ++ .received ack :: .notified (.deliveryCompleted m) handler :: after ∧
      (ack = .pubAck i ∨ ack = .pubComp i) ∧ Log.Silent i before ∧ Log.Anew i after ∧
      ∀ core', ((new settings .empty link).run (as ++ later)).1.loop.core? = some core' →
        ∀ p ∈ core'.pending, p.isRequest = true → p.packetId? = some i →
          Event.queued p.fresh ∈ after := by
  obtain ⟨core₁, hmoves, hlast⟩ :=
    moves_run (new settings .empty link) as (Core.new settings .empty link 0) rfl
  obtain rfl := hlast core hcore
  obtain ⟨last, hmoves', hlast'⟩ := moves_run _ later core hcore
  rw [run_append] at hroomy ⊢
  -- The state that the PUBREC finds, and the room that is left for what follows.
  have hroomy' := Log.roomy_iff.mp hroomy
  have htallied := Core.tallied_moves (Core.identified_empty settings link 0) hmoves
    (Log.always_append_iff.mp hroomy').1
  have hkept' := Core.cleanSession_moves hmoves hkept
  have hwell := Core.wellFormed_moves htallied.identified.wellFormed hmoves'
  have hclean := Core.cleanSession_moves hmoves' hkept'
  have hreleased := (Core.released_moves htallied.identified hkept' hm hmoves'
    (htallied.roomyAfter hroomy')).2 since hlater
  cases hreleased with
  | unfinished hm' hmark hsilent hopen =>
      refine Or.inl ⟨hsilent, hopen, ?_⟩
      intro core' hcore'
      obtain rfl := hlast' core' hcore'
      refine ⟨hm', (Session.isReleased_iff_mem hwell).mp hmark, ?_⟩
      intro opening hestablishes
      obtain ⟨link', hloop⟩ := connect_establishes hcore' hestablishes
      rw [Core.resume_kept { core' with link := link' } _ hclean] at hloop
      refine ⟨_, by rw [hloop]; rfl, ?_⟩
      show (core'.session.sent.map core'.session.redelivery
        ++ core'.pending.filter Packet.isRequest).count (.pubRel i) = 1
      rw [List.count_append, Session.count_redelivery hwell hm' hmark, Nat.add_eq_left]
      exact List.count_eq_zero.mpr fun hmem => by cases (List.mem_filter.mp hmem).2
  | finished before after ack handler hsince hack hsilent hanew hfree =>
      refine Or.inr ⟨before, ack, handler, after, hsince, hack, hsilent, hanew, ?_⟩
      intro core' hcore' p hp hrequest hid
      obtain rfl := hlast' core' hcore'
      exact hfree p (List.mem_append_left _ (List.mem_filter.mpr
        ⟨hp, Packet.awaitsAnswer_of_isRequest hrequest hid⟩)) hid

/-- A level 2 message is written. -/
def writingRun : List Action :=
  [.expect [.ok (.connAck false .accepted)], .connect none,
    .request (.publish ⟨"a", [1], .exactlyOnce, false, false, 0⟩), .turn]

/-- Its PUBREC comes twice, the PUBREL times out, and the connection ends. -/
def releasingRun : List Action :=
  [.arrive [.ok (.pubRec 1), .ok (.pubRec 1)], .outcomes [some .timeout], .turn, .turn, .turn,
    .disconnect false, .expect [.ok (.connAck true .accepted), .ok (.pubComp 1)]]

/-- On the next connection the PUBCOMP comes. -/
def completingRun : List Action :=
  releasingRun ++ [.connect none, .turn, .turn]

/-- Before the second connection the message is tracked, and one PUBREL will be
queued for it. On that connection it is completed. -/
theorem released_not_rewritten_completingRun :
    (∃ core, ((new default .empty default).run (writingRun ++ releasingRun)).1.loop.core?
        = some core ∧
      ⟨⟨.publish, 1⟩, .publish ⟨"a", [1], .exactlyOnce, false, false, 1⟩⟩ ∈ core.session.sent ∧
      ∃ next, (((new default .empty default).run (writingRun ++ releasingRun)).1.connect
          none).1.loop.core? = some next ∧ next.pending.count (.pubRel 1) = 1) ∧
    ∃ before ack handler after,
      (((new default .empty default).run writingRun).1.run completingRun).2.tail
        = before ++ .received ack
          :: .notified (.deliveryCompleted ⟨"a", [1], .exactlyOnce, false, false, 1⟩) handler
          :: after ∧
      Log.Silent 1 before := by
  have hsent : ((new default .empty default).run writingRun).1.loop.core?.any
      (fun core => ⟨⟨.publish, 1⟩, .publish ⟨"a", [1], .exactlyOnce, false, false, 1⟩⟩
        ∈ core.session.sent) = true := by
    decide
  have hlast : ((new default .empty default).run (writingRun ++ releasingRun)).1.loop.core?.isSome
      = true := by
    decide
  obtain ⟨core', hcore'⟩ := Option.isSome_iff_exists.mp hlast
  cases hcore : ((new default .empty default).run writingRun).1.loop.core? with
  | none =>
      rw [hcore] at hsent
      cases hsent
  | some core =>
      rw [hcore] at hsent
      have hm := of_decide_eq_true hsent
      constructor
      · have hlater : (((new default .empty default).run writingRun).1.run releasingRun).2
            = .received (.pubRec 1)
              :: (((new default .empty default).run writingRun).1.run releasingRun).2.tail := by
          decide
        have hnone : Log.completed
            (((new default .empty default).run writingRun).1.run releasingRun).2.tail = [] := by
          decide
        rcases released_not_rewritten default default writingRun releasingRun rfl
          (Log.roomy_of_length (by decide)) hcore hm hlater with
          ⟨-, -, hstays⟩ | ⟨before, ack, handler, after, hsince, -⟩
        · obtain ⟨hm', -, hconnect⟩ := hstays core' hcore'
          exact ⟨core', hcore', hm', hconnect none (by decide)⟩
        · -- Nothing was completed yet.
          rw [hsince, Log.completed_append] at hnone
          cases (List.append_eq_nil_iff.mp hnone).2
      · have hlater : (((new default .empty default).run writingRun).1.run completingRun).2
            = .received (.pubRec 1)
              :: (((new default .empty default).run writingRun).1.run completingRun).2.tail := by
          decide
        rcases released_not_rewritten default default writingRun completingRun rfl
          (Log.roomy_of_length (by decide)) hcore hm hlater with
          ⟨-, hopen, -⟩ | ⟨before, ack, handler, after, hsince, -, hsilent, -⟩
        · exact absurd (show _ ∈ Log.completed _ by decide) hopen
        · exact ⟨before, ack, handler, after, hsince, hsilent⟩

end Client

end Mqtt
