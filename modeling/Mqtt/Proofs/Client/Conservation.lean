import Mqtt.Proofs.Client.Balance
import Mqtt.Proofs.Client.Runs

/-!
# `Mqtt.Proofs.Client.Conservation`: no accepted request is lost or doubled

After any run of a client that started with an empty session, every request
that it accepted is in exactly one place: in the inbox, in the queue, in
the session, or among those that were completed. Only a clean connection
drops requests, and then it drops those of the session.

* `Core.kept_moves`: the invariant (`Core.Kept`) that every balanced move
  keeps. It also remembers since when a request is open.
* `Client.requests_accounted`: what the invariant says of a run
  (`Core.Accounted`), as long as identifiers do not run out and no handler
  fails.
-/

set_option autoImplicit false

namespace Mqtt

/-- Whether the server has to answer a request. -/
def Request.awaitsAnswer : Request → Bool
  | .publish m => m.qos ≠ .atMostOnce
  | .subscribe .. | .unsubscribe _ => true

namespace Log

/-- `since` is the log since the packet of a request was queued, and no
request under its identifier was completed in it. -/
def OpenSince (log : List Event) (p : Packet) (since : List Event) : Prop :=
  (∃ earlier, log = earlier ++ .queued p.fresh :: since) ∧
    ∀ q ∈ completed since, q.packetId? ≠ p.packetId?

/-- Whether the packet of a request was written, the first time or again. -/
def Written (p : Packet) (log : List Event) : Prop :=
  ∃ q, Event.wrote q none ∈ log ∧ q.fresh = p.fresh

/-- Whether an open request, which was written since it was queued, has
just been acknowledged. -/
def Answered (log : List Event) (p : Packet) : Prop :=
  ∃ earlier since ack, log = earlier ++ [.received ack] ∧ ack.acknowledges p = true ∧
    OpenSince earlier p since ∧ Written p since

/-- Fewer events than there are identifiers leave room, also for requests
that were in flight before. -/
theorem roomyAfter_of_length {resumed : Nat} {log : List Event}
    (h : resumed + log.length < 65534) : RoomyAfter resumed log := by
  intro before e after hlog p _ _
  have hrequested : (requested before).length ≤ before.length :=
    Nat.le_trans (List.length_filter_le _ _) (List.length_filterMap_le _ _)
  have hbefore : before.length ≤ log.length := by
    rw [hlog, List.length_append]
    omega
  omega

/-- A short log leaves room. -/
theorem roomy_of_length {log : List Event} (h : log.length < 65534) : Roomy log := by
  intro before e after hlog p hp hawaits
  have hroom := @roomyAfter_of_length 0 log (by omega) before e after hlog p hp hawaits
  rw [inFlight]
  omega

/-- A client that starts with an empty session starts with no requests in flight. -/
theorem roomy_iff {log : List Event} : Roomy log ↔ RoomyAfter 0 log := by
  unfold Roomy RoomyAfter inFlight
  simp only [Nat.zero_add]

/-- A request stays open while no other under its identifier is completed. -/
theorem OpenSince.append {log since events : List Event} {p : Packet} (h : OpenSince log p since)
    (hother : ∀ q ∈ completed events, q.packetId? ≠ p.packetId?) :
    OpenSince (log ++ events) p (since ++ events) := by
  obtain ⟨⟨earlier, hlog⟩, hsince⟩ := h
  refine ⟨⟨earlier, ?_⟩, ?_⟩
  · rw [hlog, List.append_assoc, List.cons_append]
  · intro q hq
    rw [completed_append, List.mem_append] at hq
    exact hq.elim (hsince q) (hother q)

/-- Whether a request is open does not depend on the duplicate flag. -/
theorem OpenSince.of_fresh {log since : List Event} {p q : Packet} (h : OpenSince log p since)
    (hfresh : p.fresh = q.fresh) : OpenSince log q since := by
  unfold OpenSince
  rw [← hfresh, ← Packet.packetId?_eq_of_fresh hfresh]
  exact h

end Log

namespace Core

/-- What a core owes to the log of its moves. -/
structure Kept (log : List Event) (core : Core) : Prop where
  wellFormed : core.session.WellFormed
  distinct : core.Distinct
  /-- Requests leave the inbox in the order in which they were accepted. -/
  inbox : (Log.accepted log).map Request.bare
    = (Log.queued log).filterMap Packet.request? ++ core.inbox.map Request.bare
  /-- What was queued is in flight, completed or forgotten. -/
  places : ((Log.requested log).map Packet.fresh).Perm
    ((core.inFlight ++ (Log.completed log ++ Log.forgotten log)).map Packet.fresh)
  /-- What is in flight is open. -/
  queued : ∀ p ∈ core.inFlight, ∃ since, Log.OpenSince log p since
  /-- What is in the session has been written. -/
  written : ∀ p ∈ core.session.sent.map Exchange.packet,
    ∃ since, Log.OpenSince log p since ∧ Log.Written p since
  answered : Log.Always (fun before e => ∀ p, e.completed? = some p → Log.Answered before p) log
  safe : ∀ p reason, Event.untracked p reason ∉ log

/-- Clearing duplicate flags changes no identifier. -/
theorem map_packetId?_fresh (ps : List Packet) :
    (ps.map Packet.fresh).map Packet.packetId? = ps.map Packet.packetId? := by
  rw [List.map_map]
  exact List.map_congr_left fun p _ => p.packetId?_fresh

/-- Requests that are in flight after a balanced move, and those that it
ended, have identifiers of their own. -/
theorem Balanced.nodup {core core' : Core} {events : List Event}
    (h : Balanced core events core') (hdistinct : core.Distinct) :
    ((core'.inFlight ++ (Log.completed events ++ Log.forgotten events)).map
      Packet.packetId?).Nodup := by
  have hperm := h.perm.map Packet.packetId?
  rw [map_packetId?_fresh, map_packetId?_fresh] at hperm
  refine hperm.nodup_iff.mp ?_
  rcases h.added with hnone | ⟨p, hevents, -, hfree⟩
  · rw [hnone, List.append_nil]
    exact hdistinct
  · -- At most one identifier is added, and it is none of those in flight.
    rw [List.map_append, List.nodup_append']
    refine ⟨hdistinct, ?_, ?_⟩
    · have hsub : ((Log.requested events).map Packet.packetId?).Sublist [p.packetId?] := by
        rw [hevents]
        exact List.filter_sublist.map Packet.packetId?
      exact (List.nodup_singleton _).sublist hsub
    · rw [hevents]
      intro i hi hadded
      obtain ⟨q, hq, rfl⟩ := List.mem_map.mp hadded
      obtain rfl : q = p := List.mem_singleton.mp (List.mem_filter.mp hq).1
      exact hfree hi

/-- Balanced moves keep identifiers distinct. -/
theorem Balanced.distinct {core core' : Core} {events : List Event}
    (h : Balanced core events core') (hdistinct : core.Distinct) : core'.Distinct := by
  have hnodup := h.nodup hdistinct
  rw [List.map_append] at hnodup
  exact hnodup.of_append_left

/-- What a balanced move completes is under another identifier than what
stays in flight. -/
theorem Balanced.completed_ne {core core' : Core} {events : List Event}
    (h : Balanced core events core') (hdistinct : core.Distinct) {p : Packet}
    (hp : p ∈ core'.inFlight) : ∀ q ∈ Log.completed events, q.packetId? ≠ p.packetId? := by
  intro q hq heq
  have hnodup := h.nodup hdistinct
  rw [List.map_append, List.nodup_append] at hnodup
  exact hnodup.2.2 _ (List.mem_map_of_mem hp) _
    (List.mem_map_of_mem (List.mem_append_left _ hq)) heq.symm

/-- In a log that is kept, the requests in flight are counted right. -/
theorem Kept.inFlight_eq {log : List Event} {core : Core} (h : Kept log core) :
    Log.inFlight log = core.inFlight.length := by
  have hlength := h.places.length_eq
  simp only [List.length_map, List.length_append] at hlength
  rw [Log.inFlight]
  omega

/-- What is in flight after a balanced move was in flight before, up to the
duplicate flag, or it has just been queued. -/
theorem Balanced.inFlight_cases {core core' : Core} {events : List Event}
    (h : Balanced core events core') {p : Packet} (hp : p ∈ core'.inFlight) :
    (∃ q ∈ core.inFlight, q.fresh = p.fresh) ∨ events = [.queued p.fresh] := by
  have hbefore : p.fresh ∈ (core.inFlight ++ Log.requested events).map Packet.fresh :=
    h.perm.mem_iff.mpr (List.mem_map_of_mem (List.mem_append_left _ hp))
  obtain ⟨q, hq, hfresh⟩ := List.mem_map.mp hbefore
  rcases List.mem_append.mp hq with hq | hq
  · exact Or.inl ⟨q, hq, hfresh⟩
  · rcases h.added with hnone | ⟨r, hevents, hr, -⟩
    · rw [hnone] at hq
      cases hq
    · rw [hevents] at hq
      obtain rfl : q = r := List.mem_singleton.mp (List.mem_filter.mp hq).1
      exact Or.inr (by rw [hevents, ← hfresh, hr])

/-- A balanced move leaves every request in flight open. -/
theorem Kept.queued_step {log events : List Event} {core core' : Core} (h : Kept log core)
    (hbalanced : Balanced core events core') :
    ∀ p ∈ core'.inFlight, ∃ since, Log.OpenSince (log ++ events) p since := by
  intro p hp
  rcases hbalanced.inFlight_cases hp with ⟨q, hq, hfresh⟩ | hevents
  · obtain ⟨since, hopen⟩ := h.queued q hq
    exact ⟨since ++ events, (hopen.of_fresh hfresh).append (hbalanced.completed_ne h.distinct hp)⟩
  · exact ⟨[], ⟨log, by rw [hevents]⟩, by simp [Log.completed]⟩

/-- A balanced move leaves in the session what was written. -/
theorem Kept.written_step {log events : List Event} {core core' : Core} (h : Kept log core)
    (hbalanced : Balanced core events core') :
    ∀ p ∈ core'.session.sent.map Exchange.packet,
      ∃ since, Log.OpenSince (log ++ events) p since ∧ Log.Written p since := by
  intro p hp
  -- It was in the session before, or it has just been written.
  have hother := hbalanced.completed_ne h.distinct (List.mem_append_right _ hp)
  rcases hbalanced.tracked p hp with hp | ⟨hp, hwrote⟩
  · obtain ⟨since, hopen, q, hq, hfresh⟩ := h.written p hp
    exact ⟨since ++ events, hopen.append hother, q, List.mem_append_left _ hq, hfresh⟩
  · obtain ⟨since, hopen⟩ := h.queued p hp
    exact ⟨since ++ events, hopen.append hother, p, List.mem_append_right _ hwrote, rfl⟩

/-- What a balanced move completes was written, and is acknowledged. -/
theorem Kept.answered_step {log events : List Event} {core core' : Core} (h : Kept log core)
    (hbalanced : Balanced core events core') :
    Log.Always (fun before e => ∀ p, e.completed? = some p → Log.Answered (log ++ before) p)
      events := by
  refine Log.always_completed (hbalanced.completed.imp_right ?_)
  rintro ⟨ack, q, n, handler, hevents, hrequest, hack, hq⟩
  obtain ⟨since, hopen, hwritten⟩ := h.written q hq
  exact ⟨ack, q, n, handler, hevents, hrequest, log, since, ack, rfl, hack, hopen, hwritten⟩

/-- Every move keeps the invariant while there is room. -/
theorem kept_move {connecting : Bool} {log events : List Event} {core core' : Core}
    (h : Kept log core) (hmove : Move connecting core events core')
    (hroomy : Log.Roomy (log ++ events)) : Kept (log ++ events) core' := by
  -- The log counts the requests in flight as the core does, so the room that
  -- it leaves is room in the core.
  have hroom : ∀ p, events = [.queued p] → p.awaitsAnswer = true →
      core.inFlight.length < 65534 := by
    intro p hevents hawaits
    rw [← h.inFlight_eq]
    exact hroomy log _ [] (by rw [hevents]) p rfl hawaits
  have hbalanced := balanced_move h.wellFormed h.distinct hroom hmove
  constructor
  · exact wellFormed_move h.wellFormed hmove
  · exact hbalanced.distinct h.distinct
  · rw [Log.accepted_append, Log.queued_append, List.map_append, List.filterMap_append, h.inbox,
      List.append_assoc, List.append_assoc, hbalanced.inbox]
  · -- What the log so far says of each packet, and what the new events say.
    rw [List.perm_iff_count]
    intro q
    have hlog := List.perm_iff_count.mp h.places q
    have hevents := List.perm_iff_count.mp hbalanced.perm q
    rw [Log.requested_append, Log.completed_append, Log.forgotten_append]
    simp only [List.map_append, List.count_append] at hlog hevents ⊢
    omega
  · exact h.queued_step hbalanced
  · exact h.written_step hbalanced
  · exact Log.always_append_iff.mpr ⟨h.answered, h.answered_step hbalanced⟩
  · intro p reason hmem
    exact (List.mem_append.mp hmem).elim (h.safe p reason) (hbalanced.safe p reason)

/-- The invariant holds of a core that starts with an empty session. -/
theorem kept_new (settings : Settings) (link : Link) (now : Nat) :
    Kept [] (new settings .empty link now) where
  wellFormed := Session.wellFormed_empty
  distinct := List.nodup_nil
  inbox := rfl
  places := List.Perm.refl _
  queued := by simp [inFlight, new, Session.empty]
  written := by simp [new, Session.empty]
  answered := Log.always_nil _
  safe := by simp

/-- Chains of moves keep the invariant while there is room. -/
theorem kept_moves {connecting : Bool} {start core : Core} {log : List Event}
    (h : Kept [] start) (hmoves : Moves connecting start log core) (hroomy : Log.Roomy log) :
    Kept log core := by
  induction hmoves with
  | refl => exact h
  | snoc _ hmove ih =>
      exact kept_move (ih (Log.always_append_iff.mp hroomy).1) hmove hroomy

/-! ### What the invariant says of requests -/

/-- Where the requests are that a client accepted, and what became of them. -/
structure Accounted (log : List Event) (core : Core) : Prop where
  /-- A request that has to be answered is in exactly one place: the inbox,
  the queue, the session, or among those that were completed, or that a
  clean connection dropped. -/
  places : (((Log.accepted log).filter Request.awaitsAnswer).map Request.bare).Perm
    ((core.inbox.filter Request.awaitsAnswer).map Request.bare
      ++ (core.pending.filter Packet.awaitsAnswer ++ core.session.sent.map Exchange.packet
        ++ (Log.completed log ++ Log.forgotten log)).filterMap Packet.request?)
  /-- So is its packet, from when it was queued. -/
  packets : ((Log.requested log).map Packet.fresh).Perm
    ((core.pending.filter Packet.awaitsAnswer ++ core.session.sent.map Exchange.packet
      ++ (Log.completed log ++ Log.forgotten log)).map Packet.fresh)
  /-- No two of those in the queue and in the session share an identifier. -/
  distinct : ((core.pending.filter Packet.awaitsAnswer
    ++ core.session.sent.map Exchange.packet).map Packet.packetId?).Nodup
  /-- A request is completed when it is acknowledged, after it was written,
  and not again before its identifier is handed out again. -/
  answered : Log.Always (fun before e => ∀ p, e.completed? = some p → Log.Answered before p) log
  /-- Every request that was written is tracked. -/
  safe : ∀ p reason, Event.untracked p reason ∉ log

/-- A packet that carries a request has to be answered if the request has. -/
theorem request?_cases (p : Packet) :
    (p.request? = none ∧ p.awaitsAnswer = false) ∨
    ∃ r, p.request? = some r ∧ r.awaitsAnswer = p.awaitsAnswer := by
  cases p with
  | publish m => exact Or.inr ⟨_, rfl, rfl⟩
  | subscribe r => exact Or.inr ⟨_, rfl, rfl⟩
  | unsubscribe r => exact Or.inr ⟨_, rfl, rfl⟩
  | _ => exact Or.inl ⟨rfl, rfl⟩

/-- The requests that have to be answered are those of the packets that have. -/
theorem filter_filterMap_request? (ps : List Packet) :
    (ps.filterMap Packet.request?).filter Request.awaitsAnswer
      = (ps.filter Packet.awaitsAnswer).filterMap Packet.request? := by
  induction ps with
  | nil => rfl
  | cons p ps ih =>
      rcases request?_cases p with ⟨hnone, hawaits⟩ | ⟨r, hsome, hawaits⟩
      · rw [List.filterMap_cons_none hnone, List.filter_cons, hawaits, if_neg Bool.false_ne_true]
        exact ih
      · rw [List.filterMap_cons_some hsome, List.filter_cons, List.filter_cons, hawaits]
        split
        · rw [List.filterMap_cons_some hsome, ih]
        · exact ih

/-- A packet carries the same request the first time and again. -/
theorem filterMap_request?_fresh (ps : List Packet) :
    (ps.map Packet.fresh).filterMap Packet.request? = ps.filterMap Packet.request? := by
  rw [List.filterMap_map]
  apply List.filterMap_congr
  intro p _
  cases p <;> rfl

/-- The requests that have to be answered keep to it when they are bare. -/
theorem filter_bare (rs : List Request) :
    (rs.map Request.bare).filter Request.awaitsAnswer
      = (rs.filter Request.awaitsAnswer).map Request.bare := by
  rw [List.filter_map]
  congr 1
  apply List.filter_congr
  intro r _
  cases r <;> rfl

/-- The invariant accounts for every request that was accepted. -/
theorem Kept.accounted {log : List Event} {core : Core} (h : Kept log core) :
    Accounted log core where
  places := by
    -- The packets stand for requests: those that were queued are where the
    -- packets are, the others are in the inbox still.
    have hinbox := congrArg (List.filter Request.awaitsAnswer) h.inbox
    rw [filter_bare, List.filter_append, filter_filterMap_request?, filter_bare] at hinbox
    rw [hinbox]
    refine List.perm_append_comm.trans (List.Perm.append_left _ ?_)
    have hplaces := h.places.filterMap Packet.request?
    rw [filterMap_request?_fresh, filterMap_request?_fresh] at hplaces
    exact hplaces
  packets := h.places
  distinct := h.distinct
  answered := h.answered
  safe := h.safe

end Core

namespace Client

/-- Whether an action makes a connection. -/
def establishes (c : Client) : Action → Bool
  | .connect opening => !c.connected && (c.connect opening).2.2.isNone
  | _ => false

/-- A client that is not connected and has no loop connects its core. -/
theorem connect_eq (c : Client) (opening : Option ClientError) {core : Core}
    (hconnected : c.connected = false) (hloop : c.loop = .idle core ∨ c.loop = .finished core) :
    (c.connect opening).2 = (core.connect c.now opening).2 := by
  rw [connect_of_resting hloop hconnected]
  rcases core.connect c.now opening with ⟨core', events, _ | failure⟩ <;> rfl

/-- Making a connection leaves a loop that is about to write what is ready for it. -/
theorem connect_establishes {c : Client} {core : Core} {opening : Option ClientError}
    (hcore : c.loop.core? = some core) (hestablishes : c.establishes (.connect opening) = true) :
    ∃ link, (c.connect opening).1.loop = .running .top ({ core with link }.resume c.now).1 := by
  rw [establishes, Bool.and_eq_true, Bool.not_eq_true', Option.isNone_iff_eq_none] at hestablishes
  obtain ⟨hconnected, hended⟩ := hestablishes
  obtain ⟨s, hat⟩ := exists_at hcore
  cases hat with
  | resting hloop =>
      rw [connect_eq c opening hconnected hloop] at hended
      rw [connect_of_resting hloop hconnected]
      obtain ⟨link, events, -, hconnect⟩ := Core.connect_cases core c.now opening
      rcases hconnect with ⟨failure, hconnect⟩ | hconnect
      · rw [hconnect] at hended
        cases hended
      · exact ⟨link, by rw [hconnect]⟩
  | top hloop | parked hloop =>
      rw [connect_of_running hloop hconnected] at hended
      cases hended
  | lost _ hloop => cases hloop.symm.trans hcore

/-- Connecting forgets what is in the session, if it makes a connection and
the session is to be clean. -/
theorem forgotten_connect (c : Client) (opening : Option ClientError) {core : Core}
    (hloop : c.loop.core? = some core) :
    Log.forgotten (c.connect opening).2.1 =
      if c.establishes (.connect opening) && core.settings.cleanSession then
        core.session.sent.map Exchange.packet
      else [] := by
  cases hconnected : c.connected with
  | true =>
      rw [establishes, connect, if_pos hconnected, hconnected]
      rfl
  | false =>
      obtain ⟨s, hat⟩ := exists_at hloop
      cases hat with
      | resting hidle =>
          obtain ⟨link, events, hown, hconnect⟩ := Core.connect_cases core c.now opening
          have haside := fun e he => Event.isAside_of_isOwn (hown e he)
          rcases hconnect with ⟨failure, hconnect⟩ | hconnect
          · rw [establishes, connect_eq c opening hconnected hidle, hconnect, hconnected]
            exact (Log.of_isAside haside).2.2.2
          · rw [establishes, connect_eq c opening hconnected hidle, hconnect, hconnected,
              Log.forgotten_append, (Log.of_isAside haside).2.2.2]
            cases hclean : core.settings.cleanSession with
            | true =>
                rw [Core.resume_clean { core with link } c.now hclean]
                exact List.append_nil _
            | false =>
                rw [Core.resume_kept { core with link } c.now hclean]
                rfl
      | top hrunning | parked hrunning =>
          -- While a loop runs, there is nothing to connect.
          rw [establishes, connect_of_running hrunning hconnected, hconnected]
          rfl
      | lost _ hnone => cases hnone.symm.trans hloop

/-- Nothing else that is done forgets anything. -/
theorem forgotten_step (c : Client) (a : Action) {core : Core}
    (hloop : c.loop.core? = some core) (h : core.session.WellFormed) :
    Log.forgotten (c.step a).2.1 =
      if c.establishes a && core.settings.cleanSession then
        core.session.sent.map Exchange.packet
      else [] := by
  have hother : a.isConnect = false → Log.forgotten (c.step a).2.1 = [] := by
    intro ha
    obtain ⟨core', hmoves, -⟩ := reached_step c a core hloop
    rw [ha] at hmoves
    exact Core.forgotten_moves h hmoves
  cases a with
  | connect opening => exact forgotten_connect c opening hloop
  | _ => exact hother rfl

/-- Every request that a client accepted can be accounted for, after any run
that starts with an empty session, leaves a free identifier whenever one is
needed, and registers no failing handler. What comes next drops requests
only if it makes a connection with a clean session, and then it drops those
of the session. -/
theorem requests_accounted (settings : Settings) (link : Link) (as : List Action)
    (hcalm : as.all Action.isCalm = true)
    (hroomy : Log.Roomy ((new settings .empty link).run as).2) :
    ∃ core, ((new settings .empty link).run as).1.loop.core? = some core ∧
      Core.Accounted ((new settings .empty link).run as).2 core ∧
      ∀ a, Log.forgotten (((new settings .empty link).run as).1.step a).2.1 =
        if ((new settings .empty link).run as).1.establishes a && settings.cleanSession then
          core.session.sent.map Exchange.packet
        else [] := by
  obtain ⟨core, hmoves, hlast⟩ :=
    moves_run (new settings .empty link) as (Core.new settings .empty link 0) rfl
  have hkept := Core.kept_moves (Core.kept_new settings link 0) hmoves hroomy
  have hsome := core?_isSome_run (new settings .empty link) as hcalm (calm_new settings .empty link)
    rfl
  obtain ⟨last, hcore⟩ := Option.isSome_iff_exists.mp hsome
  obtain rfl := hlast last hcore
  refine ⟨last, hcore, hkept.accounted, fun a => ?_⟩
  rw [forgotten_step _ a hcore hkept.wellFormed, Core.settings_moves hmoves]
  rfl

/-- A level 2 message and a subscription are written; the PUBREC comes, the
PUBREL is written at the second try, and the connection ends. On the next one
the subscription is written again, and both are acknowledged, one of them
twice. A request that was made in between waits for its answer. -/
def resumedRun : List Action :=
  [.request (.publish ⟨"a", [1], .exactlyOnce, false, false, 0⟩),
    .request (.subscribe "b" .atLeastOnce),
    .expect [.ok (.connAck false .accepted), .ok (.pubRec 1), .ok (.pubComp 7)],
    .connect none, .turn, .turn, .outcomes [some .timeout], .turn, .turn,
    .disconnect false, .request (.unsubscribe "b"),
    .expect [.ok (.connAck true .accepted), .ok (.pubComp 1), .ok (.subAck 2 none),
      .ok (.subAck 2 none)],
    .connect none, .turn, .turn, .turn, .turn, .turn, .turn, .turn]

/-- Both requests are completed once, though one is acknowledged twice. -/
theorem requests_accounted_resumedRun :
    ∃ core, ((new default .empty default).run resumedRun).1.loop.core? = some core ∧
      Core.Accounted ((new default .empty default).run resumedRun).2 core ∧
      Log.completed ((new default .empty default).run resumedRun).2
        = [.publish ⟨"a", [1], .exactlyOnce, false, false, 1⟩,
          .subscribe ⟨2, "b", .atLeastOnce⟩] := by
  obtain ⟨core, hcore, haccounted, -⟩ := requests_accounted default default resumedRun (by decide)
    (Log.roomy_of_length (by decide))
  exact ⟨core, hcore, haccounted, by decide⟩

end Client

end Mqtt
