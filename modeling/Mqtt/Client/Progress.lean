import Mqtt.Client.Loop

/-!
# `Mqtt.Client.Progress`: a loop comes to rest

`Loop.work` bounds the turns that a loop can take. It counts what the
core still has to take in: the waiting requests, and the packets to be
read (`Core.intake`). The operations of the core keep or lower it:

* `Core.intake_serve`: serving leaves no request waiting, and reads nothing.
* `Core.intake_tick`, `Core.intake_route`: the keep-alive and the routing
  of a packet take nothing in.

The theorems:

* `work_turn_lt`: a turn of a loop that has something to do lowers its
  work.
* `turn_eq_self`: a loop that has nothing to do stays as it is.
* `work_settle`: a loop that settled has nothing left to do.
-/

set_option autoImplicit false

namespace Mqtt

namespace Core

/-- What a loop still has to take in: the waiting requests, and what is to
be read. -/
def intake (core : Core) : List Request × List Arrival :=
  (core.inbox, core.link.incoming)

/-- Queueing a packet takes nothing in. -/
theorem intake_enqueue (core : Core) (p : Packet) : (core.enqueue p).intake = core.intake :=
  rfl

/-- Building the packet of a request takes nothing in. -/
theorem intake_packetOf (core : Core) (r : Request) :
    (core.packetOf r).2.intake = core.intake := by
  cases r with
  | publish m =>
      simp only [packetOf]
      split <;> rfl
  | subscribe topic qos => rfl
  | unsubscribe topic => rfl

/-- Accepting a request takes nothing more in. -/
theorem intake_accept (core : Core) (r : Request) : (core.accept r).1.intake = core.intake :=
  intake_packetOf core r

/-- Nor does accepting several. -/
theorem intake_acceptAll (core : Core) (rs : List Request) :
    (core.acceptAll rs).1.intake = core.intake := by
  induction rs generalizing core with
  | nil => rfl
  | cons r rs ih =>
      show ((core.accept r).1.acceptAll rs).1.intake = core.intake
      rw [ih, intake_accept]

/-- Every waiting request is taken. -/
theorem intake_drainInbox (core : Core) :
    core.drainInbox.1.intake = ([], core.link.incoming) :=
  intake_acceptAll { core with inbox := [] } core.inbox

/-- A write reads nothing. -/
theorem incoming_write (l : Link) (p : Packet) : (l.write p).2.incoming = l.incoming := by
  unfold Link.write
  split <;> rfl

/-- A write takes nothing in. -/
theorem intake_write (core : Core) (p : Packet) : (core.write p).2.intake = core.intake := by
  show (core.inbox, (core.link.write p).2.incoming) = core.intake
  rw [incoming_write]
  rfl

/-- Keeping a sent packet for a resend takes nothing in. -/
theorem intake_trackSent (core : Core) (p : Packet) :
    (core.trackSent p).1.intake = core.intake := by
  unfold trackSent
  split <;> rfl

/-- Nor does what follows a successful write. -/
theorem intake_noteWritten (core : Core) (p : Packet) :
    (core.noteWritten p).1.intake = core.intake := by
  unfold noteWritten
  split
  · exact intake_trackSent core p
  · rfl

/-- Writing a queue takes nothing in. -/
theorem intake_sendAll (core : Core) (ps : List Packet) :
    (core.sendAll ps).core.intake = core.intake := by
  induction ps generalizing core with
  | nil => rfl
  | cons p ps ih =>
      have hwrite := intake_write core p
      unfold sendAll
      split
      · next core' h =>
          rw [h] at hwrite
          show ((core'.noteWritten p).1.sendAll ps).core.intake = core.intake
          rw [ih, intake_noteWritten]
          exact hwrite
      · next failure core' h =>
          rw [h] at hwrite
          split
          · show (core'.sendAll ps).core.intake = core.intake
            rw [ih]
            exact hwrite
          · exact hwrite

/-- Writing the queue of the core takes nothing in. -/
theorem intake_flush (core : Core) : core.flush.1.intake = core.intake :=
  intake_sendAll core core.pending

/-- Serving takes every waiting request and reads nothing. -/
theorem intake_serve (core : Core) : core.serve.1.intake = ([], core.link.incoming) := by
  show core.drainInbox.1.flush.1.intake = ([], core.link.incoming)
  rw [intake_flush, intake_drainInbox]

/-- Looking at the keep-alive takes nothing in. -/
theorem intake_tick (core : Core) (now : Nat) : (core.tick now).1.intake = core.intake := by
  have hwrite := intake_write core .pingReq
  unfold tick
  split
  · rfl
  · rfl
  · split
    · next core' h =>
        rw [h] at hwrite
        exact hwrite
    · next failure core' h =>
        rw [h] at hwrite
        exact hwrite

/-- Keeping a received packet takes nothing in. -/
theorem intake_trackReceived (core : Core) (p : Packet) :
    (core.trackReceived p).intake = core.intake := by
  unfold trackReceived
  split <;> rfl

/-- Routing a message takes nothing in. -/
theorem intake_routePublish (core : Core) (m : Message) :
    (core.routePublish m).core.intake = core.intake := by
  unfold routePublish
  split
  · rfl
  · rfl
  · rw [intake_enqueue, intake_trackReceived]

/-- Routing a receipt takes nothing in. -/
theorem intake_routePubRec (core : Core) (packetId : UInt16) :
    (core.routePubRec packetId).core.intake = core.intake := by
  unfold routePubRec
  split
  · rfl
  · next m session h =>
      show ((({ core with session }.trackSent (.publish m)).1.trackReceived
        (.pubRec packetId)).enqueue (.pubRel packetId)).intake = core.intake
      rw [intake_enqueue, intake_trackReceived, intake_trackSent]
      rfl

/-- Routing a packet takes no request and reads nothing more. -/
theorem intake_route (core : Core) (p : Packet) : (core.route p).core.intake = core.intake := by
  cases p with
  | publish m => exact intake_routePublish core m
  | pubRec packetId => exact intake_routePubRec core packetId
  | _ => rfl

end Core

namespace Client

/-- A loop that has ended has nothing to do. -/
theorem work_finish (c : Client) (core : Core) (ending : Ending) :
    (c.finish core ending).1.loop.work = 0 := by
  unfold finish
  dsimp only
  split <;> rfl

/-- After a turn there is to do what the core still has to take in. -/
theorem work_endTurn_le (c : Client) (core : Core) :
    (c.endTurn core).1.loop.work
      ≤ 2 * (core.inbox.length + core.link.incoming.length) + 1 := by
  have htick := Core.intake_tick core c.now
  unfold endTurn
  split
  · next core' events h =>
      rw [h] at htick
      simp only [Core.intake, Prod.mk.injEq] at htick
      simp only [Loop.work, htick.1, htick.2]
      exact Nat.le_refl _
  · next core' events failure h =>
      show (c.finish core' (.lost failure)).1.loop.work ≤ _
      rw [work_finish]
      exact Nat.zero_le _

/-- After a packet there is to do what the core still has to take in, or nothing. -/
theorem work_receive_le (c : Client) (core : Core) (p : Packet) :
    (c.receive core p).1.loop.work
      ≤ 2 * (core.inbox.length + core.link.incoming.length) + 1 := by
  have hroute := Core.intake_route { core with keepAlive := core.keepAlive.heard c.now } p
  simp only [Core.intake, Prod.mk.injEq] at hroute
  have hend := work_endTurn_le c
    ({ core with keepAlive := core.keepAlive.heard c.now }.route p).core
  rw [hroute.1, hroute.2] at hend
  unfold receive
  dsimp only
  split
  · exact hend
  · split
    · exact hend
    · exact Nat.zero_le _

/-- A parked loop that something waits for takes it in. -/
theorem work_wake_lt (c : Client) (core : Core) (h : 0 < (Loop.running .parked core).work) :
    (c.wake core).1.loop.work < (Loop.running .parked core).work := by
  match hinbox : core.inbox, hincoming : core.link.incoming with
  | r :: inbox, _ =>
      have haccept := Core.intake_accept { core with inbox } r
      simp only [Core.intake, Prod.mk.injEq] at haccept
      have hend := work_endTurn_le c ({ core with inbox }.accept r).1
      rw [haccept.1, haccept.2] at hend
      have hwake : (c.wake core).1 = (c.endTurn ({ core with inbox }.accept r).1).1 := by
        simp only [wake, hinbox]
      rw [hwake, Loop.work, hinbox, List.length_cons]
      refine Nat.lt_of_le_of_lt hend ?_
      show 2 * (inbox.length + core.link.incoming.length) + 1
        < 2 * (inbox.length + 1 + core.link.incoming.length)
      omega
  | [], [] => simp [Loop.work, hinbox, hincoming] at h
  | [], arrival :: incoming =>
      have hreceive := work_receive_le c { core with link := { core.link with incoming } }
      have hend := work_endTurn_le c { core with link := { core.link with incoming } }
      simp only [hinbox, List.length_nil] at hreceive hend
      rw [Loop.work, hinbox, hincoming, List.length_cons, List.length_nil]
      simp only [wake, hinbox, hincoming]
      match arrival with
      | .ok p => exact Nat.lt_of_le_of_lt (hreceive p) (by omega)
      | .error failure =>
          dsimp only
          split
          · omega
          · rw [work_finish]
            omega

/-- The turn at the top leaves only what is to be read. -/
theorem work_turn_top_lt (c : Client) (core : Core) (hloop : c.loop = .running .top core) :
    c.turn.1.loop.work < c.loop.work := by
  have hserve := Core.intake_serve core
  rw [hloop]
  simp only [turn, hloop]
  split
  · next core' events hs =>
      rw [hs] at hserve
      simp only [Core.intake, Prod.mk.injEq] at hserve
      simp only [Loop.work, hserve.1, hserve.2, List.length_nil]
      omega
  · next core' events failure hs =>
      show (c.finish core' (.lost failure)).1.loop.work < _
      rw [work_finish]
      exact Nat.succ_pos _

/-- A turn of a loop that has something to do lowers its work. -/
theorem work_turn_lt (c : Client) (h : 0 < c.loop.work) :
    c.turn.1.loop.work < c.loop.work := by
  match hloop : c.loop with
  | .running .top core => exact hloop ▸ work_turn_top_lt c core hloop
  | .running .parked core =>
      rw [hloop] at h
      rw [show c.turn = c.wake core by simp only [turn, hloop]]
      exact work_wake_lt c core h
  | .idle core => simp [hloop, Loop.work] at h
  | .finished core => simp [hloop, Loop.work] at h
  | .destroyed => simp [hloop, Loop.work] at h
  | .gone => simp [hloop, Loop.work] at h

/-- A parked loop that nothing waits for stays as it is. -/
theorem wake_eq_self (c : Client) (core : Core) (h : (Loop.running .parked core).work = 0) :
    c.wake core = (c, []) := by
  have hinbox : core.inbox = [] := List.length_eq_zero_iff.1 (by simp only [Loop.work] at h; omega)
  have hincoming : core.link.incoming = [] :=
    List.length_eq_zero_iff.1 (by simp only [Loop.work] at h; omega)
  simp only [wake, hinbox, hincoming]

/-- A loop that has nothing to do stays as it is. -/
theorem turn_eq_self (c : Client) (h : c.loop.work = 0) : c.turn = (c, []) := by
  match hloop : c.loop with
  | .running .top core => simp [hloop, Loop.work] at h
  | .running .parked core =>
      rw [show c.turn = c.wake core by simp only [turn, hloop]]
      exact wake_eq_self c core (hloop ▸ h)
  | .idle core => simp only [turn, hloop]
  | .finished core => simp only [turn, hloop]
  | .destroyed => simp only [turn, hloop]
  | .gone => simp only [turn, hloop]

/-- A turn never adds work. -/
theorem work_turn_le (c : Client) : c.turn.1.loop.work ≤ c.loop.work - 1 := by
  by_cases h : c.loop.work = 0
  · rw [turn_eq_self c h]
    show c.loop.work ≤ c.loop.work - 1
    omega
  · have := work_turn_lt c (Nat.pos_of_ne_zero h)
    omega

/-- Every turn lowers the work, until there is none. -/
theorem work_turns_le (n : Nat) (c : Client) : (turns n c).1.loop.work ≤ c.loop.work - n := by
  induction n generalizing c with
  | zero => exact Nat.le_refl _
  | succ n ih =>
      have hfirst := work_turn_le c
      have hlater := ih c.turn.1
      show (turns n c.turn.1).1.loop.work ≤ c.loop.work - (n + 1)
      omega

/-- A loop that settled has nothing left to do. -/
theorem work_settle (c : Client) : c.settle.1.loop.work = 0 := by
  have := work_turns_le c.loop.work c
  unfold settle
  omega

end Client

end Mqtt
