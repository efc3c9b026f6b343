import Mqtt.Proofs.Client.Conservation

/-!
# `Mqtt.Proofs.Client.Identifiers`: requests in flight have identifiers of their own

A client starts with an empty session, or with the session that another
client left (`Client.Resumable`). Nothing is known of the run that made such
a session, except that identifiers did not run out in it. That is enough
for the requests in flight to be told apart by their identifiers alone
(`Core.Identified`), and so for tracking never to fail.

* `Core.numbered_of_move`: what a move adds has an identifier that the
  allocator handed out.
* `Core.tallied_moves`: the invariant (`Core.Tallied`) along a chain of moves.
  It counts the requests in flight by the log.
* `Client.identifiers_distinct`: what it says of runs.
-/

set_option autoImplicit false

namespace Mqtt

/-- Whether a packet has an identifier from 1 to 65534. -/
def Packet.Numbered (p : Packet) : Prop :=
  ∃ i, p.packetId? = some i ∧ 1 ≤ i.toNat ∧ i.toNat ≤ 65534

/-- The identifier of a packet is that of the packet before it was a duplicate. -/
theorem Packet.Numbered.of_fresh {p q : Packet} (h : p.Numbered) (hfresh : p.fresh = q.fresh) :
    q.Numbered := by
  obtain ⟨i, hi, hrange⟩ := h
  exact ⟨i, (Packet.packetId?_eq_of_fresh hfresh).symm.trans hi, hrange⟩

namespace Core

/-- No two requests in flight share an identifier, and every one has an
identifier from 1 to 65534. -/
structure Identified (core : Core) : Prop where
  wellFormed : core.session.WellFormed
  distinct : core.Distinct
  numbered : ∀ p ∈ core.inFlight, p.Numbered

/-- The requests in flight after a log that began while `resumed` of them were. -/
structure Tallied (resumed : Nat) (log : List Event) (core : Core) : Prop where
  identified : core.Identified
  count : resumed + (Log.requested log).length
    = core.inFlight.length + ((Log.completed log).length + (Log.forgotten log).length)
  safe : ∀ p reason, Event.untracked p reason ∉ log

/-- A core that starts with the session of another has the requests of it in
flight, and only these. -/
theorem identified_new {core : Core} (h : core.Identified) (settings : Settings) (link : Link)
    (now : Nat) : (new settings core.session link now).Identified where
  wellFormed := h.wellFormed
  distinct := h.distinct.sublist ((List.sublist_append_right _ _).map _)
  numbered := fun p hp => h.numbered p (List.mem_append_right _ hp)

/-- Nothing else is in flight at the start than what the session holds. -/
theorem length_inFlight_new (settings : Settings) (s : Session) (link : Link) (now : Nat) :
    (new settings s link now).inFlight.length = s.sent.length :=
  List.length_map _

/-- An empty session holds no request. -/
theorem identified_empty (settings : Settings) (link : Link) (now : Nat) :
    (new settings .empty link now).Identified where
  wellFormed := Session.wellFormed_empty
  distinct := List.nodup_nil
  numbered := by simp [inFlight, new, Session.empty]

/-- A move that adds a request to those in flight gives it an identifier from
1 to 65534. -/
theorem numbered_of_move {connecting : Bool} {core core' : Core} {events : List Event}
    (h : core.session.WellFormed) (hmove : Move connecting core events core') :
    ∀ p ∈ Log.requested events, p.Numbered := by
  -- All moves but one add nothing.
  have hnone : Log.queued events = [] → ∀ p ∈ Log.requested events, p.Numbered := by
    intro hqueued p hp
    rw [Log.requested, hqueued] at hp
    cases hp
  cases hmove.effect h with
  | aside hbooks haside => exact hnone (Log.of_isAside haside).2.1
  | ask _ r => exact hnone rfl
  | @queue _ _ r inbox p ids hinbox hrequest hfresh hid =>
      intro q hq
      obtain ⟨hqueued, hawaits⟩ := List.mem_filter.mp hq
      obtain rfl : q = p := List.mem_singleton.mp hqueued
      obtain ⟨hlow, hhigh, -⟩ := IdAllocator.next_free core.ids core.isIdTaken
      exact ⟨_, hid hawaits, hlow, hhigh⟩
  | track hpending => exact hnone rfl
  | drop hpending => exact hnone rfl
  | refuse hpending => exact hnone rfl
  | route p handler hrouting => exact hnone (by cases (core.route p).notice <;> rfl)
  | forget now => exact hnone rfl
  | redeliver now => exact hnone rfl

/-- While there is room, every move is balanced. -/
theorem Tallied.balanced {connecting : Bool} {resumed : Nat} {log events : List Event}
    {core core' : Core} (h : Tallied resumed log core)
    (hmove : Move connecting core events core')
    (hroomy : Log.RoomyAfter resumed (log ++ events)) : Balanced core events core' := by
  have hcount := h.count
  -- The room that the log leaves is room in the core.
  have hroom : ∀ p, events = [.queued p] → p.awaitsAnswer = true →
      core.inFlight.length < 65534 := by
    intro p hevents hawaits
    have hlog := hroomy log _ [] (by rw [hevents]) p rfl hawaits
    omega
  exact balanced_move h.identified.wellFormed h.identified.distinct hroom hmove

/-- The room that is left behind a log is room for the requests in flight then. -/
theorem Tallied.roomyAfter {resumed : Nat} {log later : List Event} {core : Core}
    (h : Tallied resumed log core) (hroomy : Log.RoomyAfter resumed (log ++ later)) :
    Log.RoomyAfter core.inFlight.length later := by
  intro before e after hlater p hp hawaits
  have hcount := h.count
  have hlog := (Log.always_append_iff.mp hroomy).2 before e after hlater p hp hawaits
  rw [Log.requested_append, Log.completed_append, Log.forgotten_append] at hlog
  simp only [List.length_append] at hlog
  omega

/-- Every move keeps the invariant while there is room. -/
theorem tallied_move {connecting : Bool} {resumed : Nat} {log events : List Event}
    {core core' : Core} (h : Tallied resumed log core)
    (hmove : Move connecting core events core')
    (hroomy : Log.RoomyAfter resumed (log ++ events)) : Tallied resumed (log ++ events) core' := by
  have hcount := h.count
  have hbalanced := h.balanced hmove hroomy
  have hadded := numbered_of_move h.identified.wellFormed hmove
  refine ⟨⟨wellFormed_move h.identified.wellFormed hmove,
    hbalanced.distinct h.identified.distinct, ?_⟩, ?_, ?_⟩
  · intro p hp
    -- It was in flight before, up to the duplicate flag, or it is new.
    have hbefore : p.fresh ∈ (core.inFlight ++ Log.requested events).map Packet.fresh :=
      hbalanced.perm.mem_iff.mpr (List.mem_map_of_mem (List.mem_append_left _ hp))
    obtain ⟨q, hq, hfresh⟩ := List.mem_map.mp hbefore
    rcases List.mem_append.mp hq with hq | hq
    · exact (h.identified.numbered q hq).of_fresh hfresh
    · exact (hadded q hq).of_fresh hfresh
  · have hlength := hbalanced.perm.length_eq
    rw [Log.requested_append, Log.completed_append, Log.forgotten_append]
    simp only [List.length_map, List.length_append] at hlength ⊢
    omega
  · intro p reason hmem
    exact (List.mem_append.mp hmem).elim (h.safe p reason) (hbalanced.safe p reason)

/-- Chains of moves keep the invariant while there is room. -/
theorem tallied_moves {connecting : Bool} {start core : Core} {log : List Event}
    (h : start.Identified) (hmoves : Moves connecting start log core)
    (hroomy : Log.RoomyAfter start.inFlight.length log) :
    Tallied start.inFlight.length log core := by
  induction hmoves with
  | refl => exact ⟨h, rfl, by simp⟩
  | snoc _ hmove ih =>
      exact tallied_move (ih (Log.always_append_iff.mp hroomy).1) hmove hroomy

end Core

namespace Client

/-- The sessions that a client may start with: an empty one, and the one that
is left by a run of a client that started with one of these and did not run
out of identifiers. -/
inductive Resumable : Session → Prop where
  | empty : Resumable .empty
  | snapshot {s left : Session} (settings : Settings) (link : Link) (as : List Action)
      (h : Resumable s)
      (hroomy : Log.RoomyAfter s.sent.length ((new settings s link).run as).2)
      (hsession : ((new settings s link).run as).1.session? = some left) : Resumable left

/-- A session can be seen when the client holds the core. -/
theorem core?_of_session? {c : Client} {s : Session} (h : c.session? = some s) :
    ∃ core, c.loop.core? = some core ∧ core.session = s := by
  unfold session? at h
  split at h
  · next core heq => exact ⟨core, by rw [heq]; rfl, Option.some.inj h⟩
  · cases h

/-- A run comes from moves that keep the invariant, if it starts with
requests that are told apart and leaves room. -/
theorem tallied_run {settings : Settings} {s : Session} {link : Link} {as : List Action}
    (h : (Core.new settings s link 0).Identified)
    (hroomy : Log.RoomyAfter s.sent.length ((new settings s link).run as).2) :
    ∃ last, Core.Tallied s.sent.length ((new settings s link).run as).2 last ∧
      ∀ core, ((new settings s link).run as).1.loop.core? = some core → core = last := by
  obtain ⟨last, hmoves, hlast⟩ :=
    moves_run (new settings s link) as (Core.new settings s link 0) rfl
  rw [← Core.length_inFlight_new settings s link 0] at hroomy ⊢
  exact ⟨last, Core.tallied_moves h hmoves hroomy, hlast⟩

/-- Whatever client made a session, its requests are told apart. -/
theorem Resumable.identified {s : Session} (h : Resumable s) (settings : Settings) (link : Link) :
    (Core.new settings s link 0).Identified := by
  induction h generalizing settings link with
  | empty => exact Core.identified_empty settings link 0
  | @snapshot s left settings' link' as _ hroomy hsession ih =>
      obtain ⟨last, htallied, hlast⟩ := tallied_run (ih settings' link') hroomy
      obtain ⟨core, hcore, rfl⟩ := core?_of_session? hsession
      obtain rfl := hlast core hcore
      exact Core.identified_new htallied.identified settings link 0

/-- In every run that starts with an empty session or with that of another
client, and that leaves a free identifier whenever one is needed, the
requests of the queue and of the session have identifiers of their own,
from 1 to 65534. Whatever was written and has to be answered is tracked, and
so is whatever was released. -/
theorem identifiers_distinct (settings : Settings) {s : Session} (link : Link)
    (as : List Action) (hs : Resumable s)
    (hroomy : Log.RoomyAfter s.sent.length ((new settings s link).run as).2) :
    (∀ core, ((new settings s link).run as).1.loop.core? = some core →
      ((core.pending.filter Packet.awaitsAnswer
        ++ core.session.sent.map Exchange.packet).map Packet.packetId?).Nodup ∧
      ∀ p ∈ core.pending.filter Packet.awaitsAnswer ++ core.session.sent.map Exchange.packet,
        ∃ i, p.packetId? = some i ∧ 1 ≤ i.toNat ∧ i.toNat ≤ 65534) ∧
    ∀ p reason, Event.untracked p reason ∉ ((new settings s link).run as).2 := by
  obtain ⟨last, htallied, hlast⟩ := tallied_run (hs.identified settings link) hroomy
  refine ⟨?_, htallied.safe⟩
  intro core hcore
  obtain rfl := hlast core hcore
  exact ⟨htallied.identified.distinct, htallied.identified.numbered⟩

/-- A level 2 message and a subscription are written, the message is
released, and the client disconnects. -/
def leavingRun : List Action :=
  [.request (.publish ⟨"a", [1], .exactlyOnce, false, false, 0⟩),
    .request (.subscribe "b" .atLeastOnce),
    .expect [.ok (.connAck false .accepted), .ok (.pubRec 1)],
    .connect none, .turn, .turn, .disconnect false]

/-- What it leaves to another client. -/
def leftSession : Session :=
  ⟨[⟨⟨.subscribe, 2⟩, .subscribe ⟨2, "b", .atLeastOnce⟩⟩,
      ⟨⟨.publish, 1⟩, .publish ⟨"a", [1], .exactlyOnce, false, false, 1⟩⟩],
    [⟨⟨.pubRec, 1⟩, .pubRec 1⟩]⟩

/-- The subscription, written again, times out, while PUBREL and a first
request of the new client go through; a second request comes later. -/
def joiningRun : List Action :=
  [.request (.unsubscribe "b"), .expect [.ok (.connAck true .accepted), .ok (.pubAck 7)],
    .outcomes [none, some .timeout], .connect none, .turn,
    .request (.publish ⟨"c", [2], .atLeastOnce, false, false, 0⟩), .turn]

/-- The new client hands out identifiers that the session has left over. -/
theorem identifiers_distinct_joiningRun :
    ∃ core, ((new default leftSession default).run joiningRun).1.loop.core? = some core ∧
      core.inFlight.map Packet.packetId? = [some 2, some 4, some 1, some 3] ∧
      (core.inFlight.map Packet.packetId?).Nodup ∧
      ∀ p reason, Event.untracked p reason ∉ ((new default leftSession default).run joiningRun).2
        := by
  have hleft : Resumable leftSession :=
    .snapshot default default leavingRun .empty (Log.roomyAfter_of_length (by decide)) (by decide)
  obtain ⟨hdistinct, hsafe⟩ := identifiers_distinct default default joiningRun hleft
    (Log.roomyAfter_of_length (by decide))
  have hids : ((new default leftSession default).run joiningRun).1.loop.core?.map
      (fun core => core.inFlight.map Packet.packetId?) = some [some 2, some 4, some 1, some 3] := by
    decide
  cases hcore : ((new default leftSession default).run joiningRun).1.loop.core? with
  | none =>
      rw [hcore] at hids
      cases hids
  | some core =>
      rw [hcore] at hids
      exact ⟨core, rfl, Option.some.inj hids, (hdistinct core hcore).1, hsafe⟩

end Client

end Mqtt
