import Mqtt.Proofs.Client.Runs

/-!
# `Mqtt.Proofs.Client.Attempt`: an attempt to connect that fails

Connecting takes the core out of an idle client, or out of a loop that ended
by itself, and goes through three steps that can fail.

* `Client.Coherent`: a client takes itself for connected exactly while its loop
  runs. So a client that is not connected has its core at hand.
* `Client.failed_connect_changes_nothing`: an attempt that fails leaves the core
  as it was but for the network, and the client idle. The next attempt cannot
  tell the difference.
-/

set_option autoImplicit false

namespace Mqtt

namespace Client

/-! ### Connected clients run -/

/-- Whether a client takes itself for connected exactly while its loop runs.
Where a handler destroyed the loop, nothing is said. -/
def Coherent (c : Client) : Prop :=
  match c.loop with
  | .idle _ | .finished _ => c.connected = false
  | .running .. => c.connected = true
  | .destroyed | .gone => True

/-- A new client is idle and not connected. -/
theorem coherent_new (settings : Settings) (session : Session) (link : Link) :
    (new settings session link).Coherent :=
  rfl

/-- The flag is dropped before the loop ends. -/
theorem coherent_finish (c : Client) (core : Core) (ending : Ending) :
    (c.finish core ending).1.Coherent := by
  unfold finish
  dsimp only
  by_cases hsurvive : c.handlers.survive (conclude core ending).2.2 = true
  · rw [if_pos hsurvive]
    exact rfl
  · rw [if_neg hsurvive]
    exact trivial

/-- A turn that does not end the loop leaves the flag as it is. -/
theorem coherent_endTurn {c : Client} (hconnected : c.connected = true) (core : Core) :
    (c.endTurn core).1.Coherent := by
  unfold endTurn
  split
  · exact hconnected
  · next core₁ events failure heq => exact coherent_finish c core₁ (.lost failure)

/-- A packet is routed while the flag is up. If the handler that is told of it fails, the
loop is destroyed, and the flag no longer matters. -/
theorem coherent_receive {c : Client} (hconnected : c.connected = true) (core : Core)
    (p : Packet) : (c.receive core p).1.Coherent := by
  unfold receive
  dsimp only
  split
  · exact coherent_endTurn hconnected _
  · split
    · exact coherent_endTurn hconnected _
    · exact trivial

/-- A turn is taken by a running loop only, so the flag is up when it begins. -/
theorem coherent_turn {c : Client} (h : c.Coherent) : c.turn.1.Coherent := by
  unfold turn
  split
  · next core hloop =>
      have hconnected : c.connected = true := by
        rw [Coherent, hloop] at h
        exact h
      split
      · exact hconnected
      · next core₁ events failure heq => exact coherent_finish c core₁ (.lost failure)
  · next core hloop =>
      have hconnected : c.connected = true := by
        rw [Coherent, hloop] at h
        exact h
      unfold wake
      split
      · exact coherent_endTurn hconnected _
      · split
        · exact h
        · dsimp only
          split
          · exact coherent_receive hconnected _ _
          · split
            · exact coherent_endTurn hconnected _
            · exact coherent_finish c _ _
  · exact h

/-- Disconnecting drops the flag, or finds that there is no loop to ask. -/
theorem coherent_disconnect {c : Client} (h : c.Coherent) (graceful : Bool) :
    (c.disconnect graceful).1.Coherent := by
  have hshut : (c.shutDown graceful).1.Coherent := by
    unfold shutDown
    split
    · dsimp only
      split
      · exact coherent_finish _ _ _
      · exact coherent_turn h
    · exact coherent_finish c _ _
    · exact h
  show (c.shutDown graceful).1.collect.1.Coherent
  unfold collect
  split
  · next hloop =>
      rw [Coherent, hloop] at hshut
      exact hshut
  · exact trivial
  · exact hshut

/-- Connecting starts a loop and raises the flag, or does neither. -/
theorem coherent_connect {c : Client} (h : c.Coherent) (opening : Option ClientError) :
    (c.connect opening).1.Coherent := by
  unfold connect
  split
  · exact h
  · next hconnected =>
      split
      · split
        · exact rfl
        · exact Bool.eq_false_iff.mpr hconnected
      · split
        · exact rfl
        · exact Bool.eq_false_iff.mpr hconnected
      · exact trivial
      · exact h
      · exact h

/-- A change of the core in its place leaves the flag and the loop. -/
theorem coherent_mapCore {c : Client} (h : c.Coherent) (f : Core → Core) :
    Coherent { c with loop := c.loop.mapCore f } := by
  obtain ⟨loop, connected, handlers, now⟩ := c
  cases loop <;> exact h

/-- Every action keeps flag and loop together. Requests and the network reach the core
in its place. -/
theorem coherent_step {c : Client} (h : c.Coherent) (a : Action) : (c.step a).1.Coherent := by
  cases a with
  | connect opening => exact coherent_connect h opening
  | disconnect graceful => exact coherent_disconnect h graceful
  | request r =>
      show (c.request r).1.Coherent
      unfold request send
      split
      · split
        · exact h
        · exact coherent_mapCore h _
      · exact h
  | on | elapse => exact h
  | turn => exact coherent_turn h
  | expect | arrive | outcomes => exact coherent_mapCore h _

/-- A client takes itself for connected exactly while its loop runs. -/
theorem coherent_run {c : Client} (h : c.Coherent) (as : List Action) :
    (c.run as).1.Coherent := by
  induction as generalizing c with
  | nil => exact h
  | cons a as ih => exact ih (coherent_step h a)

/-! ### A connect that fails -/

/-- A client that is not connected has its core at hand. -/
theorem at_rest {c : Client} (h : c.Coherent) (hconnected : c.connected = false) {core : Core}
    (hcore : c.loop.core? = some core) : c.loop = .idle core ∨ c.loop = .finished core := by
  obtain ⟨s, hat⟩ := exists_at hcore
  unfold Coherent at h
  cases hat with
  | resting hloop => exact hloop
  | top hloop | parked hloop =>
      rw [hloop, hconnected] at h
      cases h
  | lost _ hloop => cases hloop.symm.trans hcore

/-- A connect that fails changes nothing. Whatever a client did before, when it
is not connected and no handler has destroyed it, connecting fails in the ways
that are named and in no other. The client is idle after that, and holds the
core as it was: session, queue, waiting requests, identifiers and keep-alive.
Its network is closed, and so is what the attempt has opened. No handler is
called, and the client does not take itself for connected. On any network, the
next attempt does what it would have done in place of the one that failed. -/
theorem failed_connect_changes_nothing (settings : Settings) (session : Session) (link : Link)
    (as : List Action) {c : Client} (hrun : ((new settings session link).run as).1 = c)
    (hconnected : c.connected = false) {core : Core} (hcore : c.loop.core? = some core)
    (opening : Option ClientError) :
    (∀ events failure, (∃ c', c.connect opening = (c', events, some failure)) ↔
      core.FailedAttempt opening events failure) ∧
    ∀ c' events failure, c.connect opening = (c', events, some failure) →
      (∃ closed : Link, closed.isOpen = false ∧
        c' = { c with loop := .idle { core with link := closed } }) ∧
      c'.connected = false ∧
      (∀ host port, .opened host port none ∈ events → events.getLast? = some .closed) ∧
      (∀ notice handler, .notified notice handler ∉ events) ∧
      (∀ (later : Link) (opening' : Option ClientError),
        (c'.mapLink fun _ => later).connect opening'
          = (c.mapLink fun _ => later).connect opening') := by
  have hrest : c.loop = .idle core ∨ c.loop = .finished core :=
    at_rest (hrun ▸ coherent_run (coherent_new settings session link) as) hconnected hcore
  have hfailed : ∀ {events failure}, core.FailedAttempt opening events failure →
      ∃ closed : Link, closed.isOpen = false ∧ c.connect opening
        = ({ c with loop := .idle { core with link := closed } }, events, some failure) := by
    intro events failure h
    obtain ⟨closed, hclosed, heq⟩ := h.connect_eq c.now
    refine ⟨closed, hclosed, ?_⟩
    rw [connect_of_resting hrest hconnected, heq]
  have hnamed : ∀ {c' events failure}, c.connect opening = (c', events, some failure) →
      core.FailedAttempt opening events failure := by
    intro c' events failure h
    rw [connect_of_resting hrest hconnected] at h
    split at h
    · cases h
    · next core' events' failure' heq =>
        obtain ⟨-, hresult⟩ := Prod.mk.inj h
        obtain ⟨rfl, hfailure⟩ := Prod.mk.inj hresult
        obtain rfl := Option.some.inj hfailure
        exact Core.failedAttempt_of_connect heq
  refine ⟨fun events failure => ⟨fun ⟨c', h⟩ => hnamed h, fun h => ?_⟩, ?_⟩
  · obtain ⟨closed, -, heq⟩ := hfailed h
    exact ⟨_, heq⟩
  · intro c' events failure h
    have hattempt := hnamed h
    obtain ⟨closed, hclosed, heq⟩ := hfailed hattempt
    obtain rfl := congrArg Prod.fst (heq.symm.trans h)
    refine ⟨⟨closed, hclosed, rfl⟩, hconnected, ?_, hattempt.notified_not_mem, ?_⟩
    · exact fun host port hopened => hattempt.closed_last hopened
    · intro later opening'
      -- Both clients connect with the same core.
      have hlater : (c.mapLink fun _ => later).loop = .idle { core with link := later } ∨
          (c.mapLink fun _ => later).loop = .finished { core with link := later } :=
        hrest.imp (congrArg (Loop.mapCore _)) (congrArg (Loop.mapCore _))
      have hidle : ({ c with loop := .idle { core with link := closed } }.mapLink
          fun _ => later).loop = .idle { core with link := later } :=
        rfl
      have hafter := connect_of_resting (Or.inl hidle) hconnected opening'
      exact hafter.trans (connect_of_resting hlater hconnected opening').symm

/-- The loop ends by itself, because the server closes the connection, and a
message is left in the queue. The server will refuse the next connection. -/
def lostRun : List Action :=
  [.outcomes [none, some .timeout], .expect [.ok (.connAck false .accepted)], .connect none,
    .request (.publish ⟨"a", [1], .atLeastOnce, false, false, 0⟩), .turn,
    .arrive [.error .connectionClosed], .turn, .expect [.ok (.connAck false .notAuthorized)]]

/-- The message is still in the queue after that. -/
theorem failed_connect_changes_nothing_lostRun :
    ((new default .empty default).run lostRun).1.connected = false ∧
    ∃ core, ((new default .empty default).run lostRun).1.loop.core? = some core ∧
      core.pending = [.publish ⟨"a", [1], .atLeastOnce, false, false, 1⟩] ∧
      ∃ c' events, ((new default .empty default).run lostRun).1.connect none
          = (c', events, some (.connectionRefused .notAuthorized)) ∧
        ∃ closed : Link, closed.isOpen = false ∧ c'.loop = .idle { core with link := closed } := by
  have hconnected : ((new default .empty default).run lostRun).1.connected = false := by decide
  have hpending : ((new default .empty default).run lostRun).1.loop.core?.map Core.pending
      = some [.publish ⟨"a", [1], .atLeastOnce, false, false, 1⟩] := by
    decide
  have hfailure : (((new default .empty default).run lostRun).1.connect none).2.2
      = some (.connectionRefused .notAuthorized) := by
    decide
  obtain ⟨core, hcore, hpending⟩ := Option.map_eq_some_iff.mp hpending
  have hconnect : ((new default .empty default).run lostRun).1.connect none
      = (_, _, some (.connectionRefused .notAuthorized)) :=
    Prod.ext rfl (Prod.ext rfl hfailure)
  obtain ⟨⟨closed, hclosed, heq⟩, -⟩ := (failed_connect_changes_nothing default .empty default
    lostRun rfl hconnected hcore none).2 _ _ _ hconnect
  exact ⟨hconnected, core, hcore, hpending, _, _, hconnect, closed, hclosed,
    congrArg Client.loop heq⟩

end Client

end Mqtt
