import Mqtt.Client.Progress
import Mqtt.Proofs.Client.Beats
import Mqtt.Proofs.Client.Ledger

/-!
# `Mqtt.Proofs.Client.Turn`: how a turn goes, and how a loop ends

A parked loop takes something in (`Client.taken?`): a request, a packet whose
handler lets it live, or a read that timed out. It looks at its keep-alive after
that, and at no other time.

* `Core.Worked`: what queueing and writing come to (`Core.worked_serve`).
* `Core.Ticked`: what looking at the keep-alive comes to.
* `Client.Turned`, `Client.Parted`, `Client.Joined`: the ways in which a turn,
  disconnecting and connecting go.
* `Client.stepped`: whatever a client does in one action is one of these, or
  leaves loop and keep-alive alone.
-/

set_option autoImplicit false

namespace Mqtt

/-- Whether an event belongs to the work of a loop on its queue. -/
def Event.isWork : Event → Bool
  | .queued _ | .wrote .. | .untracked .. => true
  | _ => false

/-- The failure that an event ends the connection with, when a write fails for good. -/
def Event.fault? : Event → Option ClientError
  | .wrote _ (some failure) => if failure.isTimeout then none else some failure
  | _ => none

/-- Whether a notice tells of the end of a connection. -/
def Notice.isReport : Notice → Bool
  | .connectionLost _ | .disconnected _ => true
  | _ => false

namespace Log

/-- The failures of the writes that failed for good, in order. -/
def faults (log : List Event) : List ClientError :=
  log.filterMap Event.fault?

/-- Logs in a row have the faults of each, in order. -/
theorem faults_append (log later : List Event) :
    faults (log ++ later) = faults log ++ faults later :=
  List.filterMap_append

/-- A fault is the failure of a write, other than that time ran out. -/
theorem mem_faults_iff {log : List Event} {failure : ClientError} :
    failure ∈ faults log ↔
      ∃ p, .wrote p (some failure) ∈ log ∧ failure.isTimeout = false := by
  unfold faults
  rw [List.mem_filterMap]
  constructor
  · rintro ⟨e, he, hfault⟩
    cases e with
    | wrote p failure' =>
        cases failure' with
        | none => cases hfault
        | some failure' =>
            simp only [Event.fault?, Option.ite_none_left_eq_some, Option.some.injEq] at hfault
            obtain ⟨htimeout, rfl⟩ := hfault
            exact ⟨p, he, Bool.eq_false_iff.mpr htimeout⟩
    | _ => cases hfault
  · rintro ⟨p, hp, htimeout⟩
    exact ⟨_, hp, by simp [Event.fault?, htimeout]⟩

/-- Events that are no writes hold no fault. -/
theorem faults_eq_nil {log : List Event} (h : ∀ p failure, .wrote p failure ∉ log) :
    faults log = [] := by
  refine List.filterMap_eq_nil_iff.mpr fun e he => ?_
  cases e with
  | wrote p failure => exact absurd he (h p failure)
  | _ => rfl

end Log

namespace Core

/-! ### Work on the queue -/

/-- What became of a core and of the failure that stopped it, when packets were
queued and written and nothing else happened. -/
structure Worked (core core' : Core) (events : List Event) (failure : Option ClientError) :
    Prop where
  keepAlive : core'.keepAlive = core.keepAlive
  work : ∀ e ∈ events, e.isWork = true
  /-- A write that fails for good is the last one. -/
  faults : Log.faults events = failure.toList
  written : ∀ p failure, .wrote p failure ∈ events → p ∈ core.pending ∨ p.isRequest = true
  queue : ∀ p ∈ core'.pending, p ∈ core.pending ∨ p.isRequest = true

/-- Work can go on until something fails. -/
theorem Worked.trans {core core₁ core₂ : Core} {events events' : List Event}
    {failure : Option ClientError} (h : Worked core core₁ events none)
    (h' : Worked core₁ core₂ events' failure) : Worked core core₂ (events ++ events') failure where
  keepAlive := h'.keepAlive.trans h.keepAlive
  work := List.forall_mem_append.mpr ⟨h.work, h'.work⟩
  faults := by
    rw [Log.faults_append, h.faults, h'.faults]
    rfl
  written := by
    intro p failure hp
    rcases List.mem_append.mp hp with hp | hp
    · exact h.written p failure hp
    · exact (h'.written p failure hp).elim (h.queue p) Or.inr
  queue := fun p hp => (h'.queue p hp).elim (h.queue p) Or.inr

/-- Turning a request into a packet. -/
theorem worked_accept (core : Core) (r : Request) :
    Worked core (core.accept r).1 (core.accept r).2 none := by
  obtain ⟨p, ids, haccept, hrequest, -⟩ := accept_cases core r
  rw [haccept]
  refine ⟨rfl, by simp [Event.isWork], rfl, by simp, ?_⟩
  intro q hq
  rcases List.mem_append.mp hq with hq | hq
  · exact Or.inl hq
  · exact Or.inr (List.mem_singleton.mp hq ▸ hrequest)

/-- Turning requests into packets. -/
theorem worked_acceptAll (core : Core) (rs : List Request) :
    Worked core (core.acceptAll rs).1 (core.acceptAll rs).2 none := by
  induction rs generalizing core with
  | nil => exact ⟨rfl, by simp [acceptAll], rfl, by simp [acceptAll], fun p hp => Or.inl hp⟩
  | cons r rs ih => exact (worked_accept core r).trans (ih (core.accept r).1)

/-- Nothing but its session can change in a core when a written packet is noted. -/
theorem noteWritten_frame (core : Core) (p : Packet) :
    (core.noteWritten p).1.keepAlive = core.keepAlive ∧
      (core.noteWritten p).1.pending = core.pending := by
  rcases noteWritten_cases core p with
    ⟨-, key, -, -, hnote⟩ | ⟨-, hnote⟩ | ⟨-, -, reason, hnote⟩ <;> rw [hnote] <;> exact ⟨rfl, rfl⟩

/-- What trying packets one after the other comes to. -/
structure Pass.Tried (pass : Pass) (core : Core) (ps : List Packet) : Prop where
  keepAlive : pass.core.keepAlive = core.keepAlive
  work : ∀ e ∈ pass.events, e.isWork = true
  faults : Log.faults pass.events = pass.failure.toList
  written : ∀ p failure, .wrote p failure ∈ pass.events → p ∈ ps
  kept : ∀ p ∈ pass.kept, p ∈ ps

/-- Nothing more is said of a pass when there was one more packet to try. -/
theorem Pass.Tried.cons {pass : Pass} {core : Core} {ps : List Packet} (h : pass.Tried core ps)
    (p : Packet) : pass.Tried core (p :: ps) :=
  { h with
    written := fun q failure hq => List.mem_cons_of_mem p (h.written q failure hq)
    kept := fun q hq => List.mem_cons_of_mem p (h.kept q hq) }

/-- A packet that was tried can be kept. -/
theorem Pass.Tried.keep {pass : Pass} {core : Core} {ps : List Packet} {p : Packet}
    (h : pass.Tried core ps) (hp : p ∈ ps) : (pass.keep p).Tried core ps :=
  { h with kept := List.forall_mem_cons.mpr ⟨hp, h.kept⟩ }

/-- A pass goes on after a packet was tried and did not fail for good. -/
theorem Pass.Tried.after {pass : Pass} {core core₁ : Core} {ps : List Packet} {p : Packet}
    {events : List Event} (h : pass.Tried core₁ ps) (hp : p ∈ ps)
    (hkeep : core₁.keepAlive = core.keepAlive)
    (hevents : ∀ e ∈ events, (∃ failure, e = .wrote p failure) ∨ ∃ reason, e = .untracked p reason)
    (hfaults : Log.faults events = []) : (pass.after events).Tried core ps where
  keepAlive := h.keepAlive.trans hkeep
  work := by
    refine List.forall_mem_append.mpr ⟨fun e he => ?_, h.work⟩
    rcases hevents e he with ⟨failure, rfl⟩ | ⟨reason, rfl⟩ <;> rfl
  faults := by
    show Log.faults (events ++ pass.events) = pass.failure.toList
    rw [Log.faults_append, hfaults]
    exact h.faults
  written := by
    intro q failure hq
    rcases List.mem_append.mp hq with hq | hq
    · rcases hevents _ hq with ⟨failure', hq⟩ | ⟨reason, hq⟩
      · exact (Event.wrote.inj hq).1 ▸ hp
      · cases hq
    · exact h.written q failure hq
  kept := h.kept

/-- A pass tries packets of the queue, up to the first one that fails for good. -/
theorem tried_sendAll (core : Core) (ps : List Packet) : (core.sendAll ps).Tried core ps := by
  induction ps generalizing core with
  | nil => exact ⟨rfl, by simp [sendAll], rfl, by simp [sendAll], by simp [sendAll]⟩
  | cons p ps ih =>
      unfold sendAll
      split
      · next core₁ hwrite =>
          obtain rfl : (core.write p).2 = core₁ := congrArg Prod.snd hwrite
          -- What is noted of a packet is that it cannot be tracked, at most.
          have hnoted : ∀ e ∈ ((core.write p).2.noteWritten p).2,
              ∃ reason, e = .untracked p reason :=
            fun e he => eq_untracked_of_noteWritten he
          refine ((ih _).cons p).after List.mem_cons_self (noteWritten_frame _ p).1
            (List.forall_mem_cons.mpr ⟨Or.inl ⟨none, rfl⟩, fun e he => Or.inr (hnoted e he)⟩) ?_
          refine List.filterMap_eq_nil_iff.mpr (List.forall_mem_cons.mpr ⟨rfl, fun e he => ?_⟩)
          obtain ⟨reason, rfl⟩ := hnoted e he
          rfl
      · next failure core₁ hwrite =>
          obtain rfl : (core.write p).2 = core₁ := congrArg Prod.snd hwrite
          split
          · next htimeout =>
              exact (((ih _).cons p).keep List.mem_cons_self).after List.mem_cons_self rfl
                (List.forall_mem_singleton.mpr (Or.inl ⟨some failure, rfl⟩))
                (by simp [Log.faults, Event.fault?, htimeout])
          · next htimeout =>
              refine ⟨rfl, by simp [Event.isWork], ?_, by simp, fun q hq => hq⟩
              simp [Log.faults, Event.fault?, htimeout]

/-- Writing the queue. -/
theorem worked_flush (core : Core) :
    Worked core core.flush.1 core.flush.2.1 core.flush.2.2 := by
  have h := tried_sendAll core core.pending
  exact ⟨h.keepAlive, h.work, h.faults, fun p failure hp => Or.inl (h.written p failure hp),
    fun p hp => Or.inl (h.kept p hp)⟩

/-- Queueing and writing. -/
theorem worked_serve (core : Core) :
    Worked core core.serve.1 core.serve.2.1 core.serve.2.2 := by
  have h := (worked_acceptAll { core with inbox := [] } core.inbox).trans
    (worked_flush core.drainInbox.1)
  exact ⟨h.keepAlive, h.work, h.faults, h.written, h.queue⟩

/-- Parting works on the queue, and then tries DISCONNECT. -/
theorem part_cases (core : Core) :
    (∃ failure, core.serve.2.2 = some failure ∧
      core.part = (core.serve.1, core.serve.2.1, some failure)) ∨
    (core.serve.2.2 = none ∧
      core.part = ((core.serve.1.write .disconnect).2,
        core.serve.2.1 ++ [.wrote .disconnect (core.serve.1.write .disconnect).1],
        (core.serve.1.write .disconnect).1)) := by
  unfold part
  split
  · next core₁ events failure heq => exact Or.inl ⟨failure, by rw [heq], by rw [heq]⟩
  · next core₁ events heq => exact Or.inr ⟨by rw [heq], by rw [heq]⟩

/-! ### Keep-alive and routing -/

/-- What looking at the keep-alive at time `now` comes to. -/
inductive Ticked (core : Core) (now : Nat) : Core × List Event × Option ClientError → Prop where
  | quiet (hpoll : core.keepAlive.poll now = .nothing) : Ticked core now (core, [], none)
  | expired (hpoll : core.keepAlive.poll now = .giveUp) :
      Ticked core now (core, [], some .pingExpired)
  | pinged (link : Link) (hpoll : core.keepAlive.poll now = .ping) :
      Ticked core now ({ core with link, keepAlive := core.keepAlive.pinged now },
        [.wrote .pingReq none], none)
  | missed (link : Link) {failure : ClientError} (hpoll : core.keepAlive.poll now = .ping)
      (htimeout : failure.isTimeout = true) :
      Ticked core now ({ core with link }, [.wrote .pingReq (some failure)], none)
  | failed (link : Link) {failure : ClientError} (hpoll : core.keepAlive.poll now = .ping)
      (htimeout : failure.isTimeout = false) :
      Ticked core now ({ core with link }, [.wrote .pingReq (some failure)], some failure)

/-- Looking at the keep-alive comes to one of these. -/
theorem ticked (core : Core) (now : Nat) : Ticked core now (core.tick now) := by
  unfold tick
  split
  · next hpoll => exact .quiet hpoll
  · next hpoll => exact .expired hpoll
  · next hpoll =>
      split
      · next core₁ hwrite =>
          obtain rfl : (core.write .pingReq).2 = core₁ := congrArg Prod.snd hwrite
          exact .pinged _ hpoll
      · next failure core₁ hwrite =>
          obtain rfl : (core.write .pingReq).2 = core₁ := congrArg Prod.snd hwrite
          cases htimeout : failure.isTimeout with
          | true =>
              rw [if_pos rfl]
              exact .missed _ hpoll htimeout
          | false =>
              rw [if_neg Bool.false_ne_true]
              exact .failed _ hpoll htimeout

/-- Routing a packet leaves the keep-alive alone, unless it is a PINGRESP. -/
theorem keepAlive_route (core : Core) (p : Packet) :
    (core.route p).core.keepAlive
      = if p = .pingResp then core.keepAlive.answered else core.keepAlive := by
  -- Tracking a packet concerns the session alone.
  have hsent : ∀ (c : Core) (q : Packet), (c.trackSent q).1.keepAlive = c.keepAlive := by
    intro c q
    unfold trackSent
    split <;> rfl
  have hreceived : ∀ (c : Core) (q : Packet), (c.trackReceived q).keepAlive = c.keepAlive := by
    intro c q
    unfold trackReceived
    split <;> rfl
  cases p with
  | pingResp => rfl
  | publish m =>
      rw [if_neg (by simp)]
      simp only [route, routePublish]
      split
      · rfl
      · rfl
      · exact hreceived core (.publish m)
  | pubRec packetId =>
      rw [if_neg (by simp)]
      simp only [route, routePubRec]
      split
      · rfl
      · next m session heq =>
          exact (hreceived _ (.pubRec packetId)).trans (hsent { core with session } (.publish m))
  | _ => rw [if_neg (by simp)]; rfl

/-- Routing a packet tells of nothing but a packet that cannot be tracked. -/
theorem exists_untracked_of_route {core : Core} {p : Packet} {e : Event}
    (he : e ∈ (core.route p).events) : ∃ q reason, e = .untracked q reason := by
  cases p with
  | pubRec packetId =>
      simp only [route, routePubRec] at he
      split at he
      · cases he
      · unfold trackSent at he
        split at he
        · cases he
        · exact ⟨_, _, List.mem_singleton.mp he⟩
  | publish m =>
      simp only [route, routePublish] at he
      split at he <;> cases he
  | _ => cases he

/-- Routing a packet does not end the connection. -/
theorem isReport_route {core : Core} {p : Packet} {n : Notice}
    (hn : (core.route p).notice = some n) : n.isReport = false := by
  cases p with
  | publish m =>
      simp only [route, routePublish] at hn
      split at hn <;> cases hn <;> rfl
  | pubRec packetId =>
      simp only [route, routePubRec] at hn
      split at hn <;> cases hn
  | pubAck | pubRel | pubComp | subAck | unsubAck =>
      simp only [route, Option.map_eq_some_iff] at hn
      obtain ⟨found, -, rfl⟩ := hn
      rfl
  | _ => cases hn

end Core

namespace Client

/-! ### A turn -/

/-- What comes of a packet that the loop of a client reads. -/
def routed (c : Client) (core : Core) (p : Packet) : Core.Routed :=
  { core with keepAlive := core.keepAlive.heard c.now }.route p

/-- What happens when the loop of a client reads a packet. -/
def routing (c : Client) (core : Core) (p : Packet) : List Event :=
  .received p :: (c.routed core p).events ++ (c.routed core p).notice.toList.map c.notification

/-- What a parked loop takes in before it looks at its keep-alive: its core after
that, and what happened. It takes nothing in when nothing is there or the connection
is lost, and does not come to look when a handler destroys it. -/
def taken? (c : Client) : Option (Core × List Event) :=
  match c.loop with
  | .running .parked core =>
      match core.inbox with
      | r :: inbox => some ({ core with inbox }.accept r)
      | [] =>
          match core.link.incoming with
          | [] => none
          | arrival :: incoming =>
              let core := { core with link := { core.link with incoming } }
              match arrival with
              | .ok p =>
                  if (c.routed core p).notice.all c.handlers.survive then
                    some ((c.routed core p).core, c.routing core p)
                  else none
              | .error failure => if failure.isTimeout then some (core, []) else none
  | _ => none

/-- How a parked loop takes something in. -/
inductive Taken (c : Client) (core : Core) : Core → List Event → Prop where
  | request {r : Request} {inbox : List Request} (hinbox : core.inbox = r :: inbox) :
      Taken c core ({ core with inbox }.accept r).1 ({ core with inbox }.accept r).2
  | packet {p : Packet} {incoming : List Arrival} (hinbox : core.inbox = [])
      (hincoming : core.link.incoming = .ok p :: incoming)
      (hsurvive : ∀ n, (c.routed { core with link := { core.link with incoming } } p).notice
        = some n → c.handlers.survive n = true) :
      Taken c core (c.routed { core with link := { core.link with incoming } } p).core
        (c.routing { core with link := { core.link with incoming } } p)
  | pause {failure : ClientError} {incoming : List Arrival} (hinbox : core.inbox = [])
      (hincoming : core.link.incoming = .error failure :: incoming)
      (htimeout : failure.isTimeout = true) :
      Taken c core { core with link := { core.link with incoming } } []

/-- What a loop takes in is found out by its inbox and its network. -/
theorem taken_of_taken? {c : Client} {core₁ : Core} {taken : List Event}
    (h : c.taken? = some (core₁, taken)) :
    ∃ core, c.loop = .running .parked core ∧ c.Taken core core₁ taken := by
  unfold taken? at h
  split at h
  · next core hloop =>
      refine ⟨core, hloop, ?_⟩
      split at h
      · next r inbox hinbox =>
          obtain ⟨rfl, rfl⟩ := Prod.mk.inj (Option.some.inj h)
          exact .request hinbox
      · next hinbox =>
          split at h
          · cases h
          · next arrival incoming hincoming =>
              dsimp only at h
              split at h
              · split at h
                · next hsurvive =>
                    obtain ⟨rfl, rfl⟩ := Prod.mk.inj (Option.some.inj h)
                    refine .packet hinbox hincoming fun n hn => ?_
                    rw [hn] at hsurvive
                    exact hsurvive
                · cases h
              · split at h
                · next htimeout =>
                    obtain ⟨rfl, rfl⟩ := Prod.mk.inj (Option.some.inj h)
                    exact .pause hinbox hincoming htimeout
                · cases h
  · cases h

/-- A packet whose handler lets the loop live leads to the end of the turn. -/
theorem receive_of_survive {c : Client} {core : Core} {p : Packet}
    (h : ∀ n, (c.routed core p).notice = some n → c.handlers.survive n = true) :
    c.receive core p = ((c.endTurn (c.routed core p).core).1,
      c.routing core p ++ (c.endTurn (c.routed core p).core).2) := by
  have hroute : { core with keepAlive := core.keepAlive.heard c.now }.route p = c.routed core p :=
    rfl
  unfold receive routing
  rw [hroute]
  cases hnotice : (c.routed core p).notice with
  | none => simp [hnotice]
  | some n => simp [hnotice, h n hnotice]

/-- Any other destroys it. -/
theorem receive_of_fail {c : Client} {core : Core} {p : Packet} {n : Notice}
    (hnotice : (c.routed core p).notice = some n) (hsurvive : c.handlers.survive n = false) :
    c.receive core p = ({ c with loop := .destroyed }, c.routing core p) := by
  have hroute : { core with keepAlive := core.keepAlive.heard c.now }.route p = c.routed core p :=
    rfl
  unfold receive routing
  rw [hroute]
  simp [hnotice, hsurvive]

/-- A parked loop without a request reads. -/
theorem wake_of_packet (c : Client) {core : Core} {p : Packet} {incoming : List Arrival}
    (hinbox : core.inbox = []) (hincoming : core.link.incoming = .ok p :: incoming) :
    c.wake core = c.receive { core with link := { core.link with incoming } } p := by
  unfold wake
  split
  · next hrequest => cases hinbox.symm.trans hrequest
  · split
    · next hnothing => cases hincoming.symm.trans hnothing
    · next hread =>
        obtain ⟨rfl, rfl⟩ := List.cons.inj (hincoming.symm.trans hread)
        rfl

/-- What it reads may be that there is nothing, or that the connection is lost. -/
theorem wake_of_failure (c : Client) {core : Core} {failure : ClientError}
    {incoming : List Arrival} (hinbox : core.inbox = [])
    (hincoming : core.link.incoming = .error failure :: incoming) :
    c.wake core =
      if failure.isTimeout then c.endTurn { core with link := { core.link with incoming } }
      else c.finish { core with link := { core.link with incoming } } (.lost failure) := by
  unfold wake
  split
  · next hrequest => cases hinbox.symm.trans hrequest
  · split
    · next hnothing => cases hincoming.symm.trans hnothing
    · next hread =>
        obtain ⟨rfl, rfl⟩ := List.cons.inj (hincoming.symm.trans hread)
        rfl

/-- A loop that takes something in looks at its keep-alive, which ends its turn. -/
theorem turn_of_taken {c : Client} {core : Core} {taken : List Event}
    (h : c.taken? = some (core, taken)) :
    c.turn = ((c.endTurn core).1, taken ++ (c.endTurn core).2) := by
  obtain ⟨core₀, hloop, htaken⟩ := taken_of_taken? h
  have hturn : c.turn = c.wake core₀ := by simp only [turn, hloop]
  rw [hturn]
  cases htaken with
  | request hinbox => simp only [wake, hinbox]
  | packet hinbox hincoming hsurvive =>
      rw [wake_of_packet c hinbox hincoming]
      exact receive_of_survive hsurvive
  | pause hinbox hincoming htimeout =>
      rw [wake_of_failure c hinbox hincoming]
      exact if_pos htimeout

/-- What the end of a turn comes to: the loop goes on, or it ends. -/
theorem endTurn_cases (c : Client) (core : Core) :
    ((core.tick c.now).2.2 = none ∧ c.endTurn core
      = ({ c with loop := .running .top (core.tick c.now).1 }, (core.tick c.now).2.1)) ∨
    ∃ reason, (core.tick c.now).2.2 = some reason ∧ c.endTurn core
      = ((c.finish (core.tick c.now).1 (.lost reason)).1,
        (core.tick c.now).2.1 ++ (c.finish (core.tick c.now).1 (.lost reason)).2) := by
  unfold endTurn
  split
  · next core₁ events heq => exact Or.inl ⟨by rw [heq], by rw [heq]⟩
  · next core₁ events reason heq => exact Or.inr ⟨reason, by rw [heq], by rw [heq]⟩

/-- The ways in which a turn goes. -/
inductive Turned (c : Client) : List Event → Client → Prop where
  /-- There is nothing to do. -/
  | still (hwork : c.loop.work = 0) : Turned c [] c
  /-- The queue is served. -/
  | served {core : Core} (hloop : c.loop = .running .top core) (hserved : core.serve.2.2 = none) :
      Turned c core.serve.2.1 { c with loop := .running .parked core.serve.1 }
  /-- A packet of the queue cannot be written. -/
  | unwritten {core : Core} {reason : ClientError} (hloop : c.loop = .running .top core)
      (hfailed : core.serve.2.2 = some reason) :
      Turned c (core.serve.2.1 ++ (c.finish core.serve.1 (.lost reason)).2)
        (c.finish core.serve.1 (.lost reason)).1
  /-- Something is taken in, and the keep-alive is looked at. -/
  | looked {core : Core} {taken : List Event} (htaken : c.taken? = some (core, taken))
      (hticked : (core.tick c.now).2.2 = none) :
      Turned c (taken ++ (core.tick c.now).2.1)
        { c with loop := .running .top (core.tick c.now).1 }
  /-- The keep-alive ends the connection. -/
  | gaveUp {core : Core} {taken : List Event} {reason : ClientError}
      (htaken : c.taken? = some (core, taken)) (hticked : (core.tick c.now).2.2 = some reason) :
      Turned c (taken ++ ((core.tick c.now).2.1 ++ (c.finish (core.tick c.now).1 (.lost reason)).2))
        (c.finish (core.tick c.now).1 (.lost reason)).1
  /-- The connection is lost. -/
  | unread {core : Core} {reason : ClientError} {incoming : List Arrival}
      (hloop : c.loop = .running .parked core) (hinbox : core.inbox = [])
      (hincoming : core.link.incoming = .error reason :: incoming)
      (htimeout : reason.isTimeout = false) :
      Turned c (c.finish { core with link := { core.link with incoming } } (.lost reason)).2
        (c.finish { core with link := { core.link with incoming } } (.lost reason)).1
  /-- A handler destroys the loop. -/
  | broken {core : Core} {p : Packet} {incoming : List Arrival} {n : Notice}
      (hloop : c.loop = .running .parked core) (hinbox : core.inbox = [])
      (hincoming : core.link.incoming = .ok p :: incoming)
      (hnotice : (c.routed { core with link := { core.link with incoming } } p).notice = some n)
      (hsurvive : c.handlers.survive n = false) :
      Turned c (c.routing { core with link := { core.link with incoming } } p)
        { c with loop := .destroyed }

/-- A loop at the top serves its queue and parks. -/
theorem turn_of_served {c : Client} {core : Core} (hloop : c.loop = .running .top core)
    (hserved : core.serve.2.2 = none) :
    c.turn = ({ c with loop := .running .parked core.serve.1 }, core.serve.2.1) := by
  unfold turn
  rw [hloop]
  dsimp only
  split
  · next core₁ events heq => rw [heq]
  · next core₁ events reason heq =>
      rw [heq] at hserved
      cases hserved

/-- It ends when a packet of the queue cannot be written. -/
theorem turn_of_unwritten {c : Client} {core : Core} {reason : ClientError}
    (hloop : c.loop = .running .top core) (hfailed : core.serve.2.2 = some reason) :
    c.turn = ((c.finish core.serve.1 (.lost reason)).1,
      core.serve.2.1 ++ (c.finish core.serve.1 (.lost reason)).2) := by
  unfold turn
  rw [hloop]
  dsimp only
  split
  · next core₁ events heq =>
      rw [heq] at hfailed
      cases hfailed
  · next core₁ events reason' heq =>
      rw [heq] at hfailed
      obtain rfl := Option.some.inj hfailed
      rw [heq]

/-- A loop that reads without taking something in ends, or is destroyed. -/
theorem turned_of_incoming {c : Client} {core : Core} {arrival : Arrival}
    {incoming : List Arrival} (hloop : c.loop = .running .parked core) (hinbox : core.inbox = [])
    (hincoming : core.link.incoming = arrival :: incoming) (htaken : c.taken? = none) :
    c.Turned c.turn.2 c.turn.1 := by
  have hturn : c.turn = c.wake core := by simp only [turn, hloop]
  rw [hturn]
  -- `taken?` looks at the same things as `wake`, in the same order: two of its ways are shut
  -- here, and the others are those in which the loop does not live on.
  unfold taken? at htaken
  rw [hloop] at htaken
  dsimp only at htaken
  split at htaken
  · next hrequest => cases hinbox.symm.trans hrequest
  split at htaken
  · next hnothing => cases hincoming.symm.trans hnothing
  next hread =>
  obtain ⟨rfl, rfl⟩ := List.cons.inj (hincoming.symm.trans hread)
  cases arrival with
  | ok p =>
      dsimp only at htaken
      split at htaken
      · cases htaken
      · next hfail =>
          rw [wake_of_packet c hinbox hincoming]
          cases hnotice : (c.routed { core with link := { core.link with incoming } } p).notice with
          | none =>
              rw [hnotice] at hfail
              exact absurd rfl hfail
          | some n =>
              rw [hnotice, Option.all_some, Bool.not_eq_true] at hfail
              rw [receive_of_fail hnotice hfail]
              exact .broken hloop hinbox hincoming hnotice hfail
  | error failure =>
      dsimp only at htaken
      split at htaken
      · cases htaken
      · next htimeout =>
          rw [wake_of_failure c hinbox hincoming, if_neg htimeout]
          exact .unread hloop hinbox hincoming (Bool.eq_false_iff.mpr htimeout)

/-- A turn goes in one of these ways. -/
theorem turned (c : Client) : c.Turned c.turn.2 c.turn.1 := by
  cases htaken : c.taken? with
  | some result =>
      obtain ⟨core, taken⟩ := result
      rw [turn_of_taken htaken]
      rcases endTurn_cases c core with ⟨hticked, hend⟩ | ⟨reason, hticked, hend⟩ <;> rw [hend]
      · exact .looked htaken hticked
      · exact .gaveUp htaken hticked
  | none =>
      -- A loop that takes nothing in is not parked, or has nothing to read, or ends here.
      by_cases hwork : c.loop.work = 0
      · rw [turn_eq_self c hwork]
        exact .still hwork
      cases hloop : c.loop with
      | idle | finished | destroyed | gone =>
          rw [hloop] at hwork
          exact absurd rfl hwork
      | running phase core =>
          cases phase with
          | top =>
              cases hserve : core.serve.2.2 with
              | none =>
                  rw [turn_of_served hloop hserve]
                  exact .served hloop hserve
              | some reason =>
                  rw [turn_of_unwritten hloop hserve]
                  exact .unwritten hloop hserve
          | parked =>
              rw [hloop] at hwork
              cases hinbox : core.inbox with
              | cons r inbox => simp [taken?, hloop, hinbox] at htaken
              | nil =>
                  cases hincoming : core.link.incoming with
                  | nil => simp [Loop.work, hinbox, hincoming] at hwork
                  | cons arrival incoming =>
                      exact turned_of_incoming hloop hinbox hincoming htaken

/-! ### The end of a loop -/

/-- What a core does last leaves its keep-alive alone. -/
theorem keepAlive_conclude (core : Core) (ending : Ending) :
    (conclude core ending).1.keepAlive = core.keepAlive := by
  have hserve := Core.worked_serve core
  unfold conclude
  split
  · rfl
  · rfl
  · rcases core.part_cases with ⟨failure, -, hpart⟩ | ⟨-, hpart⟩ <;> rw [hpart] <;>
      exact hserve.keepAlive

/-- It works on the queue and writes DISCONNECT. -/
theorem work_conclude (core : Core) (ending : Ending) :
    ∀ e ∈ (conclude core ending).2.1, e.isWork = true ∧
      ∀ p failure, e = .wrote p failure → p ∈ core.pending ∨ p.isRequest = true ∨
        p = .disconnect := by
  have hserve := Core.worked_serve core
  have hserved : ∀ e ∈ core.serve.2.1, e.isWork = true ∧
      ∀ p failure, e = .wrote p failure → p ∈ core.pending ∨ p.isRequest = true ∨
        p = .disconnect := by
    refine fun e he => ⟨hserve.work e he, ?_⟩
    rintro p failure rfl
    exact (hserve.written p failure he).imp_right Or.inl
  unfold conclude
  split
  · simp
  · simp
  · rcases core.part_cases with ⟨failure, -, hpart⟩ | ⟨-, hpart⟩ <;> rw [hpart]
    · exact hserved
    · refine List.forall_mem_append.mpr ⟨hserved, List.forall_mem_singleton.mpr ⟨rfl, ?_⟩⟩
      rintro p failure heq
      exact Or.inr (Or.inr (Event.wrote.inj heq).1.symm)

/-- The application is told of the end. -/
theorem isReport_conclude (core : Core) (ending : Ending) :
    (conclude core ending).2.2.isReport = true := by
  unfold conclude
  split <;> rfl

/-! ### Disconnecting -/

/-- The core of a loop when it sees that it is to shut down. A loop that is about to
serve its queue does that first, and may end by it. -/
def signalled? (c : Client) : Option Core :=
  match c.loop with
  | .running .parked core => some core
  | .running .top core => if core.serve.2.2.isNone then some core.serve.1 else none
  | _ => none

/-- What happens before that. -/
def unsignalled (c : Client) : List Event :=
  match c.loop with
  | .running .top core => core.serve.2.1
  | _ => []

/-- The ways in which disconnecting goes. -/
inductive Parted (c : Client) (graceful : Bool) :
    List Event → Client → Option ClientError → Prop where
  /-- There is no loop, or it has ended. -/
  | resting {core : Core} (hloop : c.loop = .idle core ∨ c.loop = .finished core) :
      Parted c graceful [] { c with loop := .idle core } none
  /-- The client finds out that its loop was destroyed. -/
  | destroyed (hloop : c.loop = .destroyed) :
      Parted c graceful [] { c with loop := .gone } (some .loopDestroyed)
  | gone (hloop : c.loop = .gone) : Parted c graceful [] c none
  /-- The loop ends before it sees the signal. -/
  | unwritten {core : Core} {reason : ClientError} (hloop : c.loop = .running .top core)
      (hfailed : core.serve.2.2 = some reason) :
      Parted c graceful (core.serve.2.1 ++ (c.finish core.serve.1 (.lost reason)).2)
        (c.finish core.serve.1 (.lost reason)).1.collect.1
        (c.finish core.serve.1 (.lost reason)).1.collect.2
  | stopped {core : Core} (hsignal : c.signalled? = some core) :
      Parted c graceful (c.unsignalled ++ (c.finish core (.shutdown graceful)).2)
        (c.finish core (.shutdown graceful)).1.collect.1
        (c.finish core (.shutdown graceful)).1.collect.2

/-- A loop that has ended leaves a core that is taken back, or none. -/
theorem collect_finish (c : Client) (core : Core) (ending : Ending) :
    (c.finish core ending).1.collect.1 =
      { c with
        loop := if c.handlers.survive (conclude core ending).2.2 then
            .idle (conclude core ending).1.close
          else .gone
        connected := false } := by
  unfold finish
  dsimp only
  cases c.handlers.survive (conclude core ending).2.2 <;> rfl

/-- Disconnecting goes in one of these ways. -/
theorem parted (c : Client) (graceful : Bool) : c.Parted graceful (c.disconnect graceful).2.1
    (c.disconnect graceful).1 (c.disconnect graceful).2.2 := by
  unfold disconnect shutDown
  cases hloop : c.loop with
  | idle core =>
      dsimp only
      unfold collect
      rw [hloop]
      have h : c.Parted graceful [] { c with loop := .idle core } none := .resting (Or.inl hloop)
      rw [← hloop] at h
      exact h
  | finished core =>
      dsimp only
      unfold collect
      rw [hloop]
      exact .resting (Or.inr hloop)
  | destroyed =>
      dsimp only
      unfold collect
      rw [hloop]
      exact .destroyed hloop
  | gone =>
      dsimp only
      unfold collect
      rw [hloop]
      exact .gone hloop
  | running phase core =>
      cases phase with
      | parked =>
          have hsignal : c.signalled? = some core := by rw [signalled?, hloop]
          have h : c.Parted graceful _ _ _ := .stopped hsignal
          rw [unsignalled, hloop] at h
          exact h
      | top =>
          -- The loop serves its queue before it sees the signal, and may end by that.
          cases hserve : core.serve.2.2 with
          | none =>
              have hsignal : c.signalled? = some core.serve.1 := by simp [signalled?, hloop, hserve]
              have h : c.Parted graceful _ _ _ := .stopped hsignal
              rw [unsignalled, hloop] at h
              dsimp only
              rw [turn_of_served hloop hserve]
              exact h
          | some reason =>
              have h : c.Parted graceful _ _ _ := .unwritten hloop hserve
              dsimp only
              rw [turn_of_unwritten hloop hserve]
              unfold finish at h ⊢
              dsimp only at h ⊢
              split
              · next hrunning => split at hrunning <;> cases hrunning
              · exact h

/-! ### Connecting -/

/-- The ways in which connecting goes. -/
inductive Joined (c : Client) (opening : Option ClientError) :
    List Event → Client → Option ClientError → Prop where
  /-- The client takes itself for connected. -/
  | already (hconnected : c.connected = true) : Joined c opening [] c none
  | refused {core : Core} {events : List Event} {failure : ClientError} (link : Link)
      (hconnected : c.connected = false) (hloop : c.loop = .idle core ∨ c.loop = .finished core)
      (hfailed : core.FailedAttempt opening events failure) :
      Joined c opening events { c with loop := .idle { core with link } } (some failure)
  /-- The server accepts the connection. -/
  | made {core : Core} (link : Link) (hconnected : c.connected = false)
      (hloop : c.loop = .idle core ∨ c.loop = .finished core) :
      Joined c opening (core.greeting ++ ({ core with link }.resume c.now).2)
        { c with loop := .running .top ({ core with link }.resume c.now).1, connected := true } none
  /-- The client finds out that its loop was destroyed. -/
  | destroyed (hconnected : c.connected = false) (hloop : c.loop = .destroyed) :
      Joined c opening [] { c with loop := .gone } (some .loopDestroyed)
  /-- There is no core to connect with. -/
  | stuck (hconnected : c.connected = false) : Joined c opening [] c (some .loopGone)

/-- Connecting goes in one of these ways. -/
theorem joined (c : Client) (opening : Option ClientError) : c.Joined opening
    (c.connect opening).2.1 (c.connect opening).1 (c.connect opening).2.2 := by
  cases hconnected : c.connected with
  | true =>
      unfold connect
      rw [if_pos hconnected]
      exact .already hconnected
  | false =>
      -- A core is connected in the same way, whether the client holds it or still has to take
      -- it back.
      have hresting : ∀ {core}, c.loop = .idle core ∨ c.loop = .finished core →
          c.Joined opening (c.connect opening).2.1 (c.connect opening).1
            (c.connect opening).2.2 := by
        intro core hloop
        rw [connect_of_resting hloop hconnected]
        rcases core.attempt_cases opening with ⟨events, failure, hfailed⟩ | ⟨rfl, hoffer, hanswer⟩
        · obtain ⟨link, -, hconnect⟩ := hfailed.connect_eq c.now
          rw [hconnect]
          exact .refused link hconnected hloop hfailed
        · rw [Core.connect_answered hoffer, hanswer]
          exact .made core.answer.2.openUp hconnected hloop
      cases hloop : c.loop with
      | idle core => exact hresting (Or.inl hloop)
      | finished core => exact hresting (Or.inr hloop)
      | running phase core =>
          rw [connect_of_running hloop hconnected]
          exact .stuck hconnected
      | destroyed =>
          unfold connect
          rw [if_neg (by rw [hconnected]; exact Bool.false_ne_true), hloop]
          exact .destroyed hconnected hloop
      | gone =>
          unfold connect
          rw [if_neg (by rw [hconnected]; exact Bool.false_ne_true), hloop]
          exact .stuck hconnected

/-! ### An action -/

/-- What a client does in one action. -/
inductive Stepped (c : Client) : Action → List Event → Client → Prop where
  | turn {events : List Event} {c' : Client} (h : c.Turned events c') : Stepped c .turn events c'
  | disconnect {graceful : Bool} {events : List Event} {c' : Client}
      {failure : Option ClientError} (h : c.Parted graceful events c' failure) :
      Stepped c (.disconnect graceful) events c'
  | connect {opening : Option ClientError} {events : List Event} {c' : Client}
      {failure : Option ClientError} (h : c.Joined opening events c' failure) :
      Stepped c (.connect opening) events c'
  /-- Nothing happens to the loop, and at most a request is accepted. -/
  | aside {a : Action} {events : List Event} {c' : Client} (f : Core → Core)
      (hloop : c'.loop = c.loop.mapCore f) (hconnected : c'.connected = c.connected)
      (hcore : ∀ core, (f core).keepAlive = core.keepAlive)
      (hevents : ∀ e ∈ events, (∃ r, e = .accepted r) ∧ c.loop.core?.isSome = true) :
      Stepped c a events c'

/-- Not to change the core is not to change the loop. -/
theorem mapCore_id (loop : Loop) : loop.mapCore id = loop := by
  cases loop <;> rfl

/-- Whatever a client does is one of these. -/
theorem stepped (c : Client) (a : Action) : c.Stepped a (c.step a).2.1 (c.step a).1 := by
  have hsame : c.loop = c.loop.mapCore id := (mapCore_id c.loop).symm
  cases a with
  | connect opening => exact .connect (c.joined opening)
  | disconnect graceful => exact .disconnect (c.parted graceful)
  | turn => exact .turn c.turned
  | request r =>
      show c.Stepped (.request r) (c.request r).2.1 (c.request r).1
      unfold request send
      split
      · split
        · exact .aside id hsame rfl (fun _ => rfl) (by simp)
        · next core hcore => exact .aside _ rfl rfl (fun _ => rfl) (by simp [hcore])
      · exact .aside id hsame rfl (fun _ => rfl) (by simp)
  | on | elapse => exact .aside id hsame rfl (fun _ => rfl) (by simp [step])
  | expect | arrive | outcomes => exact .aside _ rfl rfl (fun _ => rfl) (by simp [step])

end Client

end Mqtt
