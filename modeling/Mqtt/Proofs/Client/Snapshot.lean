import Mqtt.Proofs.Client.Flush
import Mqtt.Proofs.Client.Identifiers

/-!
# `Mqtt.Proofs.Client.Snapshot`: what a session that is handed on remembers

A new connection takes the unanswered requests out of the session and puts
them in front of the queue; they come back when they are written again. If
the connection ends before that, they are in the queue only, and a client
that starts with the session does not know of them (`Client.brokenRun`).

* `Core.remembered_moves`: a request that was written is completed, tracked,
  or waits in the queue since a connection that came later (`Core.Remembers`).
* `Client.resends_of_tracked`: a client that starts with a session writes
  what it tracks, or the PUBREL for it, in the first turn of its first
  connection.
* `Client.snapshot_remembers`: both for the session that a run leaves.
-/

set_option autoImplicit false

namespace Mqtt

namespace Log

/-- Whether a request is written, or the PUBREL that stands for it. -/
def Repeats (p : Packet) (log : List Event) : Prop :=
  ∃ q ∈ handed log, q.fresh = p.fresh ∨ ∃ i, p.packetId? = some i ∧ q = .pubRel i

/-- Whether a request is written does not depend on the duplicate flag. -/
theorem Repeats.of_fresh {p q : Packet} {log : List Event} (h : Repeats p log)
    (hfresh : p.fresh = q.fresh) : Repeats q log := by
  unfold Repeats
  rw [← hfresh, ← Packet.packetId?_eq_of_fresh hfresh]
  exact h

end Log

/-- What is written for a tracked request on a new connection is the request,
or the PUBREL that stands for it. -/
theorem Session.redelivery_repeats {s : Session} (h : s.WellFormed) {e : Exchange}
    (he : e ∈ s.sent) : (s.redelivery e).fresh = e.packet.fresh ∨
      ∃ i, e.packet.packetId? = some i ∧ s.redelivery e = .pubRel i := by
  have hid : e.packet.packetId? = some e.key.packetId := Exchange.packetId?_of_mem h.sent_keyed he
  unfold redelivery
  split
  · next m hpacket =>
      rw [hpacket] at hid ⊢
      split
      · exact Or.inr ⟨e.key.packetId, hid, rfl⟩
      · exact Or.inl rfl
  · exact Or.inl rfl

namespace Core

/-- What has become of a request that was written, where `since` is the log
since then: it was completed, it is tracked, or a connection that was made
later took it out of the session, and it waits to be written again. -/
def Remembers (core : Core) (p : Packet) (since : List Event) : Prop :=
  (∃ q ∈ Log.completed since, q.fresh = p.fresh) ∨
  (∃ e ∈ core.session.sent, e.packet.fresh = p.fresh) ∨
  (Event.established none ∈ since ∧
    ∃ q ∈ core.pending, q.awaitsAnswer = true ∧ q.fresh = p.fresh)

/-! ### Requests that were written -/

/-- A tracked request stays tracked, unless it is completed, or a connection
puts it back in the queue. -/
theorem tracked_move {connecting : Bool} {core core' : Core} {events : List Event}
    (h : core.session.WellFormed) (hkept : core.settings.cleanSession = false)
    (hmove : Move connecting core events core') {e : Exchange} (he : e ∈ core.session.sent) :
    e ∈ core'.session.sent ∨ e.packet ∈ Log.completed events ∨
    (Event.established none ∈ events ∧
      ∃ q ∈ core'.pending, q.awaitsAnswer = true ∧ q.fresh = e.packet.fresh) := by
  cases hmove.effect h with
  | aside hbooks haside =>
      rw [show core'.session = core.session from congrArg Books.session hbooks]
      exact Or.inl he
  | track hpending => exact Or.inl (List.mem_append_left _ he)
  | route p handler hrouting =>
      refine (route_keeps h p he).imp_right ?_
      rintro ⟨-, n, hnotice, hrequest⟩
      left
      rw [Log.completed_received, hnotice, Option.bind_some, hrequest]
      exact List.mem_singleton.mpr rfl
  | forget now hclean => cases hclean.symm.trans hkept
  | redeliver now =>
      rcases redelivery_cases core.session (h.sent_awaits e he) with
        ⟨-, hawaits, hfresh⟩ | ⟨hstays, -⟩
      · exact Or.inr (Or.inr ⟨List.mem_singleton.mpr rfl, _,
          List.mem_append_left _ (List.mem_map_of_mem he), hawaits, hfresh⟩)
      · exact Or.inl (List.mem_filter.mpr ⟨he, hstays⟩)
  | _ => exact Or.inl he

/-- A request of the queue stays there until it is written, and then it is
tracked. -/
theorem waiting_move {connecting : Bool} {core core' : Core} {events : List Event}
    (h : core.session.WellFormed) (hdistinct : core.Distinct)
    (hmove : Move connecting core events core') {q : Packet} (hq : q ∈ core.pending)
    (hawaits : q.awaitsAnswer = true) :
    q ∈ core'.pending ∨ ∃ e ∈ core'.session.sent, e.packet = q := by
  cases hmove.effect h with
  | aside hbooks haside =>
      rw [show core'.pending = core.pending from congrArg Books.pending hbooks]
      exact Or.inl hq
  | ask _ r => exact Or.inl hq
  | queue hinbox => exact Or.inl (List.mem_append_left _ hq)
  | @track _ _ front back p key hpending =>
      rw [hpending, List.mem_append, List.mem_cons] at hq
      by_cases heq : q = p
      · exact Or.inr ⟨⟨key, p⟩, List.mem_append_right _ (List.mem_singleton.mpr rfl), heq.symm⟩
      · exact Or.inl (List.mem_append.mpr (hq.imp_right (Or.resolve_left · heq)))
  | @drop _ _ front back p hpending hnone =>
      rw [hpending, List.mem_append, List.mem_cons] at hq
      have heq : q ≠ p := by
        rintro rfl
        cases hnone.symm.trans hawaits
      exact Or.inl (List.mem_append.mpr (hq.imp_right (Or.resolve_left · heq)))
  | refuse hpending hawaits' hopen =>
      -- The key is free, because no other request has the identifier.
      obtain ⟨key, hkey, hfree⟩ := exists_key_not_mem_sent h hdistinct hpending hawaits'
      exact absurd (hopen key hkey) hfree
  | route p handler hrouting =>
      left
      cases hrouting with
      | answer answers hanswers hsent hpending =>
          rw [hpending]
          exact List.mem_append_left _ hq
      | complete front back e n hfound hsent hpending =>
          rw [hpending]
          exact hq
      | release front back e packetId hfound hkey hsent hpending =>
          rw [hpending]
          exact List.mem_append_left _ hq
  | forget now => exact Or.inl (List.mem_filter.mpr ⟨hq, Packet.isRequest_of_awaitsAnswer hawaits⟩)
  | redeliver now =>
      exact Or.inl (List.mem_append_right _
        (List.mem_filter.mpr ⟨hq, Packet.isRequest_of_awaitsAnswer hawaits⟩))

/-- What is remembered is remembered after the next move. -/
theorem remembers_move {connecting : Bool} {core core' : Core} {since events : List Event}
    {p : Packet} (h : core.session.WellFormed) (hdistinct : core.Distinct)
    (hkept : core.settings.cleanSession = false) (hremembers : core.Remembers p since)
    (hmove : Move connecting core events core') : core'.Remembers p (since ++ events) := by
  unfold Remembers
  rw [Log.completed_append]
  rcases hremembers with ⟨q, hq, hfresh⟩ | ⟨e, he, hfresh⟩ | ⟨hlater, q, hq, hawaits, hfresh⟩
  · exact Or.inl ⟨q, List.mem_append_left _ hq, hfresh⟩
  · rcases tracked_move h hkept hmove he with he | he | ⟨hlater, q, hq, hawaits, hfresh'⟩
    · exact Or.inr (Or.inl ⟨e, he, hfresh⟩)
    · exact Or.inl ⟨e.packet, List.mem_append_right _ he, hfresh⟩
    · exact Or.inr (Or.inr ⟨List.mem_append_right _ hlater, q, hq, hawaits, hfresh'.trans hfresh⟩)
  · rcases waiting_move h hdistinct hmove hq hawaits with hq | ⟨e, he, rfl⟩
    · exact Or.inr (Or.inr ⟨List.mem_append_left _ hlater, q, hq, hawaits, hfresh⟩)
    · exact Or.inr (Or.inl ⟨e, he, hfresh⟩)

/-- A move that writes a request tracks it. -/
theorem wrote_move {connecting : Bool} {core core' : Core} {events : List Event}
    (h : core.session.WellFormed) (hdistinct : core.Distinct)
    (hmove : Move connecting core events core') {p : Packet} (hp : Event.wrote p none ∈ events)
    (hawaits : p.awaitsAnswer = true) : ∃ e ∈ core'.session.sent, e.packet = p := by
  cases hmove.effect h with
  | aside hbooks haside =>
      -- What a client writes on its own account is no request.
      have hkind := haside _ hp
      cases p <;> simp [Event.isAside, Packet.kind, Packet.awaitsAnswer] at hkind hawaits
  | @track _ _ front back q key hpending =>
      obtain rfl : p = q := by simpa using hp
      exact ⟨⟨key, p⟩, List.mem_append_right _ (List.mem_singleton.mpr rfl), rfl⟩
  | @drop _ _ front back q hpending hnone =>
      obtain rfl : p = q := by simpa using hp
      cases hnone.symm.trans hawaits
  | refuse hpending hawaits' hopen =>
      obtain ⟨key, hkey, hfree⟩ := exists_key_not_mem_sent h hdistinct hpending hawaits'
      exact absurd (hopen key hkey) hfree
  | _ => simp at hp

/-- Along a chain of moves every request that was written is remembered, if no
connection is clean and there is room. -/
theorem remembered_moves {connecting : Bool} {start core : Core} {log : List Event}
    (h : start.Identified) (hkept : start.settings.cleanSession = false)
    (hmoves : Moves connecting start log core)
    (hroomy : Log.RoomyAfter start.inFlight.length log) :
    ∀ before p since, log = before ++ .wrote p none :: since → p.awaitsAnswer = true →
      core.Remembers p since := by
  induction hmoves with
  | refl =>
      intro before p since hlog
      cases before <;> cases hlog
  | snoc hmoves hmove ih =>
      intro before p since hlog hawaits
      have hbefore := (Log.always_append_iff.mp hroomy).1
      obtain ⟨hidentified, -, -⟩ := tallied_moves h hmoves hbefore
      have hkept' := cleanSession_moves hmoves hkept
      rcases Log.split_append hlog with ⟨rest, hold, rfl⟩ | ⟨rest, -, hnew⟩
      -- It was written before this move, and stays remembered.
      · exact remembers_move hidentified.wellFormed hidentified.distinct hkept'
          (ih hbefore before p rest hold hawaits) hmove
      -- This move wrote it, and tracked it.
      · obtain ⟨e, he, hpacket⟩ := wrote_move hidentified.wellFormed hidentified.distinct hmove
          (by rw [hnew]; simp) hawaits
        exact Or.inr (Or.inl ⟨e, he, by rw [hpacket]⟩)

end Core

namespace Client

/-- A client that was never connected stays so, with what it has, until it
makes a connection. -/
theorem idle_step {c : Client} {core : Core} (hloop : c.loop = .idle core) (a : Action)
    (hnone : ∀ forgotten, Event.established forgotten ∉ (c.step a).2.1) :
    ∃ core', (c.step a).1.loop = .idle core' ∧ core'.settings = core.settings ∧
      core'.session = core.session ∧ core'.pending = core.pending := by
  -- Requests and the network reach the core in its place.
  have hmap : ∀ f : Core → Core, (f core).settings = core.settings →
      (f core).session = core.session → (f core).pending = core.pending →
      ∃ core', c.loop.mapCore f = .idle core' ∧ core'.settings = core.settings ∧
        core'.session = core.session ∧ core'.pending = core.pending := by
    intro f hsettings hsession hpending
    exact ⟨f core, by rw [hloop]; rfl, hsettings, hsession, hpending⟩
  cases a with
  | connect opening =>
      simp only [step, connect, hloop] at hnone ⊢
      split
      · exact ⟨core, hloop, rfl, rfl, rfl⟩
      · next hconnected =>
          rw [if_neg hconnected] at hnone
          -- hconnect⟩ := | An attempt that fails gives the core back, with another network.
          obtain ⟨link, events, -, ⟨failure, hconnect⟩ | hconnect⟩ :=
            Core.connect_cases core c.now opening
          · rw [hconnect]
            exact ⟨_, rfl, rfl, rfl, rfl⟩
          · -- This would make a connection.
            rw [hconnect] at hnone
            cases hclean : core.settings.cleanSession with
            | true =>
                rw [Core.resume_clean { core with link } c.now hclean] at hnone
                exact absurd (List.mem_append_right _ (List.mem_singleton.mpr rfl)) (hnone _)
            | false =>
                rw [Core.resume_kept { core with link } c.now hclean] at hnone
                exact absurd (List.mem_append_right _ (List.mem_singleton.mpr rfl)) (hnone _)
  | disconnect graceful =>
      refine ⟨core, ?_, rfl, rfl, rfl⟩
      simp only [step, disconnect, shutDown, hloop, collect]
  | request r =>
      simp only [step, request]
      split
      · unfold send
        rw [hloop]
        exact ⟨_, rfl, rfl, rfl, rfl⟩
      · exact ⟨core, hloop, rfl, rfl, rfl⟩
  | on kind h => exact ⟨core, hloop, rfl, rfl, rfl⟩
  | turn =>
      refine ⟨core, ?_, rfl, rfl, rfl⟩
      simp only [step, turn, hloop]
  | expect incoming => exact hmap _ rfl rfl rfl
  | arrive incoming => exact hmap _ rfl rfl rfl
  | outcomes outcomes => exact hmap _ rfl rfl rfl
  | elapse time => exact ⟨core, hloop, rfl, rfl, rfl⟩

/-- So it does in every run. -/
theorem idle_run {c : Client} {core : Core} (hloop : c.loop = .idle core) (as : List Action)
    (hnone : ∀ forgotten, Event.established forgotten ∉ (c.run as).2) :
    ∃ core', (c.run as).1.loop = .idle core' ∧ core'.settings = core.settings ∧
      core'.session = core.session ∧ core'.pending = core.pending := by
  induction as generalizing c core with
  | nil => exact ⟨core, hloop, rfl, rfl, rfl⟩
  | cons a as ih =>
      obtain ⟨core₁, hloop₁, hsettings, hsession, hpending⟩ := idle_step hloop a
        fun forgotten hmem => hnone forgotten (List.mem_append_left _ hmem)
      obtain ⟨core', hloop', hrest⟩ := ih hloop₁
        fun forgotten hmem => hnone forgotten (List.mem_append_right _ hmem)
      rw [hsettings, hsession, hpending] at hrest
      exact ⟨core', hloop', hrest⟩

/-- Whether every client that starts with a session writes a request, or the
PUBREL that stands for it, in the first turn of its first connection, unless
a failure ends the turn. -/
def Resends (s : Session) (p : Packet) : Prop :=
  ∀ settings link as opening, settings.cleanSession = false →
    (∀ forgotten, Event.established forgotten ∉ ((new settings s link).run as).2) →
    ((new settings s link).run as).1.establishes (.connect opening) = true →
    (((new settings s link).run as).1.connect opening).1.turn.1.connected = true →
    Log.Repeats p (((new settings s link).run as).1.connect opening).1.turn.2

/-- A turn at the top that does not end the loop writes the queue first. -/
theorem handed_turn {c : Client} {core : Core} (hloop : c.loop = .running .top core)
    (hconnected : c.turn.1.connected = true) : core.pending <+: Log.handed c.turn.2 := by
  have hflushed := core.flushed_serve
  unfold turn at hconnected ⊢
  rw [hloop] at hconnected ⊢
  dsimp only at hconnected ⊢
  split
  · next core₁ events heq =>
      rw [heq] at hflushed
      exact ⟨_, hflushed.of_served.1⟩
  · next core₁ events failure heq =>
      rw [heq] at hconnected
      cases hconnected

/-- What a session tracks is written again. -/
theorem resends_of_tracked {s : Session} (h : s.WellFormed) {e : Exchange} (he : e ∈ s.sent) :
    Resends s e.packet := by
  intro settings link as opening hkept hnone hestablishes hconnected
  obtain ⟨core, hloop, hsettings, hsession, -⟩ :=
    idle_run (show (new settings s link).loop = .idle (Core.new settings s link 0) from rfl)
      as hnone
  have hclean : core.settings.cleanSession = false := by rw [hsettings]; exact hkept
  -- So the first connection finds the session as it was handed over.
  obtain ⟨link', hloop'⟩ := connect_establishes (by rw [hloop]; rfl) hestablishes
  rw [Core.resume_kept { core with link := link' } _ hclean] at hloop'
  have hmem : s.redelivery e ∈
      core.session.redeliver.1 ++ core.pending.filter Packet.isRequest := by
    rw [hsession]
    exact List.mem_append_left _ (List.mem_map_of_mem he)
  exact ⟨s.redelivery e, (handed_turn hloop' hconnected).subset hmem,
    Session.redelivery_repeats h he⟩

/-- Whether a session resends a request does not depend on the duplicate flag. -/
theorem Resends.of_fresh {s : Session} {p q : Packet} (h : Resends s p)
    (hfresh : p.fresh = q.fresh) : Resends s q := by
  intro settings link as opening hkept hnone hestablishes hconnected
  exact (h settings link as opening hkept hnone hestablishes hconnected).of_fresh hfresh

/-- The session that a run leaves, if no connection is clean and identifiers do
not run out. Every request that was written is completed, or it is tracked,
and then whoever starts with the session writes it again; or a connection
that was made later took it out of the session and ended before the request
was written again, and then only the queue of this client still has it. -/
theorem snapshot_remembers (settings : Settings) {s : Session} (link : Link) (as : List Action)
    (hs : Resumable s) (hkept : settings.cleanSession = false)
    (hroomy : Log.RoomyAfter s.sent.length ((new settings s link).run as).2) {left : Session}
    (hsession : ((new settings s link).run as).1.session? = some left) :
    ∃ core, ((new settings s link).run as).1.loop.core? = some core ∧ core.session = left ∧
      ∀ before p since, ((new settings s link).run as).2 = before ++ .wrote p none :: since →
        p.awaitsAnswer = true →
        (∃ q ∈ Log.completed since, q.fresh = p.fresh) ∨
        ((∃ e ∈ left.sent, e.packet.fresh = p.fresh) ∧ Resends left p) ∨
        (Event.established none ∈ since ∧
          ∃ q ∈ core.pending, q.awaitsAnswer = true ∧ q.fresh = p.fresh) := by
  obtain ⟨core, hcore, rfl⟩ := core?_of_session? hsession
  refine ⟨core, hcore, rfl, ?_⟩
  intro before p since hlog hawaits
  have hidentified := hs.identified settings link
  obtain ⟨last, hmoves, hlast⟩ :=
    moves_run (new settings s link) as (Core.new settings s link 0) rfl
  obtain rfl := hlast core hcore
  have hwell := Core.wellFormed_moves hidentified.wellFormed hmoves
  -- Requests are remembered by the core along the moves; the session is a part of it.
  rw [← Core.length_inFlight_new settings s link 0] at hroomy
  rcases Core.remembered_moves hidentified hkept hmoves hroomy before p since hlog hawaits with
    hcompleted | ⟨e, he, hfresh⟩ | hwaiting
  · exact Or.inl hcompleted
  · exact Or.inr (Or.inl ⟨⟨e, he, hfresh⟩, (resends_of_tracked hwell he).of_fresh hfresh⟩)
  · exact Or.inr (Or.inr hwaiting)

/-- A released message is tracked when its client disconnects, so another client
writes its PUBREL. -/
theorem snapshot_remembers_leavingRun :
    Resends leftSession (.publish ⟨"a", [1], .exactlyOnce, false, false, 1⟩) ∧
      Log.Repeats (.publish ⟨"a", [1], .exactlyOnce, false, false, 1⟩)
        (((new default leftSession default).run
          [.expect [.ok (.connAck true .accepted)]]).1.connect none).1.turn.2 := by
  obtain ⟨core, -, -, hremembers⟩ := snapshot_remembers default default leavingRun .empty rfl
    (Log.roomyAfter_of_length (by decide))
    (show ((new default .empty default).run leavingRun).1.session? = some leftSession by decide)
  have hresends : Resends leftSession (.publish ⟨"a", [1], .exactlyOnce, false, false, 1⟩) := by
    rcases hremembers (((new default .empty default).run leavingRun).2.take 8)
      (.publish ⟨"a", [1], .exactlyOnce, false, false, 1⟩)
      (((new default .empty default).run leavingRun).2.drop 9) (by decide) rfl with
      ⟨q, hq, -⟩ | ⟨-, hresends⟩ | ⟨hlater, -⟩
    · have hnone : Log.completed (((new default .empty default).run leavingRun).2.drop 9) = [] := by
        decide
      rw [hnone] at hq
      cases hq
    · exact hresends
    · exact absurd hlater (by decide)
  refine ⟨hresends, hresends default default _ none rfl ?_ (by decide) (by decide)⟩
  intro forgotten hmem
  cases hmem

/-- A message is written, and the client disconnects. The next connection ends
when the message is to be written again. -/
def brokenRun : List Action :=
  [.expect [.ok (.connAck false .accepted)], .connect none,
    .request (.publish ⟨"a", [1], .atLeastOnce, false, false, 0⟩), .turn, .disconnect false,
    .expect [.ok (.connAck true .accepted)], .outcomes [none, some .connectionClosed],
    .connect none, .turn, .disconnect false]

/-- The message was written and never answered, and yet the session that is
left does not track it. -/
theorem snapshot_misses_brokenRun :
    (default : Settings).cleanSession = false ∧
      Event.wrote (.publish ⟨"a", [1], .atLeastOnce, false, false, 1⟩) none
        ∈ ((new default .empty default).run brokenRun).2 ∧
      Log.completed ((new default .empty default).run brokenRun).2 = [] ∧
      ((new default .empty default).run brokenRun).1.session? = some .empty := by
  decide

end Client

end Mqtt
