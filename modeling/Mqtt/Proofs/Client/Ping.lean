import Mqtt.Proofs.Client.Report
import Mqtt.Proofs.Client.Stream

/-!
# `Mqtt.Proofs.Client.Ping`: when a client pings, and when it gives up

The events of a run are stamped with the time at which they happen
(`Client.stamped`). A stamped log says when the client last heard from the server
(`Log.heard`) and which PINGREQ was left unanswered on the connection
(`Log.unanswered`). That is all the keep-alive knows.

* `KeepAlive.follows_eq`: a keep-alive that follows a log knows the two times.
* `Client.pulse`: the keep-alive of a client follows its log, and a PINGREQ is
  handed to the transport by a loop that looks at its keep-alive only.
* `Client.pings_exact`: when a loop looks at its keep-alive, the log before says
  what it does.
-/

set_option autoImplicit false

namespace Mqtt

/-- Whether an event means something to the keep-alive: a connection is made, a packet
comes in, or a PINGREQ is handed to the transport. -/
def Event.isPulse : Event → Bool
  | .established _ | .received _ | .wrote .pingReq _ => true
  | _ => false

namespace Log

/-- Events that happen at one time. -/
def stamp (now : Nat) (events : List Event) : List (Nat × Event) :=
  events.map (now, ·)

/-- Events that happen at one time are stamped with it, one by one. -/
theorem stamp_append (now : Nat) (events later : List Event) :
    stamp now (events ++ later) = stamp now events ++ stamp now later :=
  List.map_append

/-- The times at which the client heard from the server: it accepted a connection, or a
packet came in. -/
def heard (log : List (Nat × Event)) : List Nat :=
  log.filterMap fun
    | (time, .established _) | (time, .received _) => some time
    | _ => none

/-- Logs in a row hear the server when each does. -/
theorem heard_append (log later : List (Nat × Event)) :
    heard (log ++ later) = heard log ++ heard later :=
  List.filterMap_append

/-- What an event does to the list of unanswered PINGREQs: it is empty after a new
connection and after a PINGRESP, and a PINGREQ that was written is put in it. -/
def await (waiting : List Nat) : Nat × Event → List Nat
  | (_, .established _) | (_, .received .pingResp) => []
  | (time, .wrote .pingReq none) => waiting ++ [time]
  | _ => waiting

/-- The times at which a PINGREQ was written on the connection that was made last, and
no PINGRESP came in since. -/
def unanswered (log : List (Nat × Event)) : List Nat :=
  log.foldl await []

/-- The second log goes on with the PINGREQs that the first left unanswered. -/
theorem unanswered_append (log later : List (Nat × Event)) :
    unanswered (log ++ later) = later.foldl await (unanswered log) :=
  List.foldl_append

/-- Whether a PINGREQ has to be written: none is unanswered, and the client heard nothing
for more than half the interval. -/
def PingDue (interval now : Nat) (log : List (Nat × Event)) : Prop :=
  0 < interval ∧ unanswered log = [] ∧
    ∃ time, (heard log).getLast? = some time ∧ interval < 2 * (now - time)

/-- Whether a PINGREQ was left unanswered for more than half the interval. -/
def PingExpired (interval now : Nat) (log : List (Nat × Event)) : Prop :=
  0 < interval ∧ ∃ time ∈ unanswered log, interval < 2 * (now - time)

/-- No PINGREQ is among other events. -/
theorem pingReq_not_mem {events : List Event} (h : ∀ e ∈ events, e.isPulse = false)
    (failure : Option ClientError) : .wrote .pingReq failure ∉ events := by
  intro hwrote
  cases h _ hwrote

/-- Other events do not count. -/
theorem foldl_await {now : Nat} {events : List Event} (h : ∀ e ∈ events, e.isPulse = false)
    (waiting : List Nat) : (stamp now events).foldl await waiting = waiting := by
  induction events with
  | nil => rfl
  | cons e events ih =>
      obtain ⟨he, hevents⟩ := List.forall_mem_cons.mp h
      have hwait : await waiting (now, e) = waiting := by
        unfold await
        split <;> first | rfl | simp_all [Event.isPulse]
      show (stamp now events).foldl await (await waiting (now, e)) = waiting
      rw [hwait]
      exact ih hevents

/-- Without a PINGREQ that is written no more become unanswered. -/
theorem length_foldl_await_le {now : Nat} {events : List Event}
    (h : .wrote .pingReq none ∉ events) (waiting : List Nat) :
    ((stamp now events).foldl await waiting).length ≤ waiting.length := by
  induction events generalizing waiting with
  | nil => exact Nat.le_refl _
  | cons e events ih =>
      rw [List.mem_cons, not_or] at h
      have hwait : (await waiting (now, e)).length ≤ waiting.length := by
        unfold await
        split
        · exact Nat.zero_le _
        · exact Nat.zero_le _
        · next heq => exact absurd (congrArg Prod.snd heq).symm h.1
        · exact Nat.le_refl _
      exact (ih h.2 (await waiting (now, e))).trans hwait

end Log

namespace KeepAlive

/-- The keep-alive after an event. -/
def follow (k : KeepAlive) : Nat × Event → KeepAlive
  | (now, .established _) => k.restart now
  | (now, .received p) => if p = .pingResp then (k.heard now).answered else k.heard now
  | (now, .wrote .pingReq none) => k.pinged now
  | _ => k

/-- The keep-alive after a log. -/
def follows (k : KeepAlive) (log : List (Nat × Event)) : KeepAlive :=
  log.foldl follow k

/-- The keep-alive follows one log after the other. -/
theorem follows_append (k : KeepAlive) (log later : List (Nat × Event)) :
    k.follows (log ++ later) = (k.follows log).follows later :=
  List.foldl_append

/-- Other events mean nothing to it. -/
theorem follows_stamp {now : Nat} {events : List Event} (h : ∀ e ∈ events, e.isPulse = false)
    (k : KeepAlive) : k.follows (Log.stamp now events) = k := by
  induction events with
  | nil => rfl
  | cons e events ih =>
      obtain ⟨he, hevents⟩ := List.forall_mem_cons.mp h
      have hfollow : k.follow (now, e) = k := by
        unfold follow
        split <;> first | rfl | simp_all [Event.isPulse]
      show (k.follow (now, e)).follows (Log.stamp now events) = k
      rw [hfollow]
      exact ih hevents

/-- A keep-alive that follows a log from the start knows when the client last heard from
the server, and which PINGREQ is unanswered. -/
theorem follows_eq (interval : Nat) (log : List (Nat × Event)) :
    (start interval 0).follows log =
      ⟨if interval = 0 then none else some (interval / 2),
        ((Log.heard log).getLast?.getD 0 : Nat),
        (Log.unanswered log).getLast?.map (fun time => (time : Int))⟩ := by
  -- From the end of the log, because the keep-alive knows the last times only.
  induction log using List.reverseRecOn with
  | nil => rfl
  | append_singleton log stamped ih =>
      obtain ⟨now, e⟩ := stamped
      rw [follows_append, ih, Log.heard_append, Log.unanswered_append]
      cases e with
      | established => simp [follows, follow, restart, Log.heard, Log.await]
      | received p =>
          by_cases hp : p = .pingResp
          · subst hp
            simp [follows, follow, answered, KeepAlive.heard, Log.heard, Log.await]
          · have hwait : Log.await (Log.unanswered log) (now, .received p)
                = Log.unanswered log := by
              cases p <;> first | rfl | exact absurd rfl hp
            simp [follows, follow, KeepAlive.heard, Log.heard, hp, hwait]
      | wrote p failure =>
          cases p <;> cases failure <;> simp [follows, follow, pinged, Log.heard, Log.await]
      | _ => simp [follows, follow, Log.heard, Log.await]

/-- Half the interval is over when twice the time is more than the interval. -/
theorem isOver_iff (interval since now : Nat) :
    isOver (interval / 2) since now = true ↔ interval < 2 * (now - since) := by
  unfold isOver
  rw [decide_eq_true_iff]
  omega

/-- A PINGREQ that is due comes before anything else. -/
theorem poll_eq_ping_iff_isDue {k : KeepAlive} {now : Int} :
    k.poll now = .ping ↔ k.isDue now = true := by
  unfold poll
  split
  · simp [*]
  · split <;> simp [*]

variable {interval now : Nat} {log : List (Nat × Event)}

/-- A PINGREQ is due when the log says so. -/
theorem poll_eq_ping_iff (hheard : Log.heard log ≠ []) :
    ((start interval 0).follows log).poll now = .ping ↔ Log.PingDue interval now log := by
  obtain ⟨time, htime⟩ : ∃ time, (Log.heard log).getLast? = some time :=
    ⟨_, List.getLast?_eq_some_getLast hheard⟩
  rw [poll_eq_ping_iff_isDue, follows_eq, htime]
  unfold isDue Log.PingDue
  by_cases hzero : interval = 0
  · simp [hzero]
  · rw [htime]
    cases hwaiting : Log.unanswered log with
    | nil => simpa [hzero, Nat.pos_of_ne_zero hzero] using isOver_iff interval time now
    | cons sent waiting => simp [hzero, List.getLast?_cons]

/-- None is due while one is unanswered. -/
theorem unanswered_of_ping (h : ((start interval 0).follows log).poll now = .ping) :
    Log.unanswered log = [] := by
  rw [poll_eq_ping_iff_isDue, follows_eq] at h
  unfold isDue at h
  cases hwaiting : Log.unanswered log with
  | nil => rfl
  | cons sent waiting =>
      rw [hwaiting] at h
      split at h
      · next heq => simp [List.getLast?_cons] at heq
      · cases h

/-- A PINGREQ has expired when the log says so. -/
theorem poll_eq_giveUp (hone : (Log.unanswered log).length ≤ 1) :
    ((start interval 0).follows log).poll now = .giveUp ↔ Log.PingExpired interval now log := by
  rw [poll_eq_giveUp_iff, follows_eq]
  unfold isExpired Log.PingExpired
  by_cases hzero : interval = 0
  · simp [hzero]
  · cases hwaiting : Log.unanswered log with
    | nil => simp [hzero]
    | cons sent waiting =>
        -- The PINGREQ that the keep-alive knows of is the only one.
        obtain rfl : waiting = [] := by
          rw [hwaiting] at hone
          exact List.length_eq_zero_iff.mp (Nat.le_zero.mp (Nat.le_of_succ_le_succ hone))
        simpa [hzero, Nat.pos_of_ne_zero hzero] using isOver_iff interval sent now

end KeepAlive

namespace Core

/-- Work on a queue without PINGREQ means nothing to the keep-alive. -/
theorem Worked.silent {core core' : Core} {events : List Event} {failure : Option ClientError}
    (h : Worked core core' events failure) (hqueue : .pingReq ∉ core.pending) :
    ∀ e ∈ events, e.isPulse = false := by
  intro e he
  have hwork := h.work e he
  cases e with
  | wrote p failure' =>
      cases p with
      | pingReq =>
          rcases h.written .pingReq failure' he with hmem | hrequest
          · exact absurd hmem hqueue
          · cases hrequest
      | _ => rfl
  | _ => first | rfl | cases hwork

/-- So the keep-alive follows it by staying as it is. -/
theorem Worked.follows {core core' : Core} {events : List Event} {failure : Option ClientError}
    (h : Worked core core' events failure) (hqueue : .pingReq ∉ core.pending) (now : Nat) :
    core'.keepAlive = core.keepAlive.follows (Log.stamp now events) := by
  rw [KeepAlive.follows_stamp (h.silent hqueue)]
  exact h.keepAlive

/-- It leaves no PINGREQ in the queue. -/
theorem Worked.pingReq_not_mem {core core' : Core} {events : List Event}
    {failure : Option ClientError} (h : Worked core core' events failure)
    (hqueue : .pingReq ∉ core.pending) : .pingReq ∉ core'.pending := by
  intro hmem
  rcases h.queue .pingReq hmem with hmem | hrequest
  · exact hqueue hmem
  · cases hrequest

/-- A keep-alive that is looked at follows what comes of it. -/
theorem follows_tick (core : Core) (now : Nat) : (core.tick now).1.keepAlive
    = core.keepAlive.follows (Log.stamp now (core.tick now).2.1) := by
  have h := core.ticked now
  generalize core.tick now = result at h ⊢
  cases h <;> rfl

/-- Nothing means something to the keep-alive before the server answers. -/
theorem silent_opened (core : Core) (opening : Option ClientError) :
    ∀ e ∈ core.opened opening, e.isPulse = false := by
  unfold opened
  split <;> simp [Event.isPulse]

/-- Before the server accepts a connection, nothing means anything to the keep-alive. -/
theorem silent_greeting (core : Core) : ∀ e ∈ core.greeting, e.isPulse = false :=
  List.forall_mem_append.mpr
    ⟨core.silent_opened none, by simp [Event.isPulse, Settings.toConnect]⟩

/-- Nor does it in an attempt that fails. -/
theorem FailedAttempt.silent {core : Core} {opening : Option ClientError} {events : List Event}
    {failure : ClientError} (h : core.FailedAttempt opening events failure) :
    ∀ e ∈ events, e.isPulse = false := by
  cases h with
  | unopened => exact core.silent_opened _
  | unwritten =>
      exact List.forall_mem_append.mpr
        ⟨core.silent_opened none, by simp [Event.isPulse, Settings.toConnect]⟩
  | refused => exact List.forall_mem_append.mpr ⟨core.silent_greeting, by simp [Event.isPulse]⟩

/-- A new connection starts the keep-alive over. -/
theorem keepAlive_resume (core : Core) (now : Nat) :
    (core.resume now).1.keepAlive = core.keepAlive.restart now := by
  unfold resume
  split <;> rfl

end Core

namespace Client

variable {c : Client} {core : Core}

/-! ### The keep-alive of a client follows its log -/

/-- Whether the keep-alive of a client follows what happens. -/
def Paces (c : Client) (core : Core) (events : List Event) (c' : Client) : Prop :=
  ∀ core', c'.loop.core? = some core' →
    core'.keepAlive = core.keepAlive.follows (Log.stamp c.now events)

/-- A loop that runs has one core. -/
theorem eq_of_running {phase : Phase} {core₀ : Core} (hloop : c.loop.core? = some core)
    (hrunning : c.loop = .running phase core₀) : core₀ = core := by
  rw [hrunning] at hloop
  exact Option.some.inj hloop

/-- Losing the connection means nothing to the keep-alive. -/
theorem silent_finish_lost (c : Client) (core : Core) (reason : ClientError) :
    ∀ e ∈ (c.finish core (.lost reason)).2, e.isPulse = false := by
  simp [finish, conclude, Event.isPulse, notification]

/-- Nor does any other end of a loop. -/
theorem paces_finish {core₁ : Core} {life : List Event} {ending : Ending}
    (hlife : core₁.keepAlive = core.keepAlive.follows (Log.stamp c.now life))
    (hsilent : ∀ e ∈ (conclude core₁ ending).2.1, e.isPulse = false) :
    c.Paces core (life ++ (c.finish core₁ ending).2) (c.finish core₁ ending).1 := by
  intro core' hcore'
  have hend : ∀ e ∈ (c.finish core₁ ending).2, e.isPulse = false :=
    List.forall_mem_append.mpr ⟨hsilent, by simp [Event.isPulse, notification]⟩
  rw [Log.stamp_append, KeepAlive.follows_append, KeepAlive.follows_stamp hend, ← hlife,
    ← keepAlive_conclude core₁ ending]
  unfold finish at hcore'
  dsimp only at hcore'
  split at hcore'
  · obtain rfl := Option.some.inj hcore'
    rfl
  · cases hcore'

/-- So does taking the core back. -/
theorem paces_collect {events : List Event} {c' : Client} (h : c.Paces core events c') :
    c.Paces core events c'.collect.1 := by
  intro core' hcore'
  rw [core?_collect] at hcore'
  exact h core' hcore'

/-- Shutting down writes no PINGREQ when none is queued. -/
theorem silent_conclude {core₁ : Core} (hqueue : .pingReq ∉ core₁.pending) (ending : Ending) :
    ∀ e ∈ (conclude core₁ ending).2.1, e.isPulse = false := by
  intro e he
  obtain ⟨hwork, hwrote⟩ := work_conclude core₁ ending e he
  cases e with
  | wrote p failure =>
      cases p with
      | pingReq =>
          rcases hwrote .pingReq failure rfl with hmem | hrequest | hlast
          · exact absurd hmem hqueue
          · cases hrequest
          · cases hlast
      | _ => rfl
  | _ => first | rfl | cases hwork

/-- Nor does what comes before it. -/
theorem silent_of_signalled? {core₁ : Core} (hloop : c.loop.core? = some core)
    (hqueue : .pingReq ∉ core.pending) (hsignal : c.signalled? = some core₁) :
    core₁.keepAlive = core.keepAlive ∧ .pingReq ∉ core₁.pending ∧
      ∀ e ∈ c.unsignalled, e.isPulse = false := by
  unfold signalled? at hsignal
  unfold unsignalled
  split at hsignal
  · next core₀ hparked =>
      obtain rfl := Option.some.inj hsignal
      rw [hparked] at hloop ⊢
      obtain rfl := Option.some.inj hloop
      exact ⟨rfl, hqueue, List.forall_mem_nil _⟩
  -- A loop at the top serves its queue first, where no PINGREQ waits.
  · next core₀ htop =>
      rw [htop] at hloop ⊢
      obtain rfl := Option.some.inj hloop
      have hserve := Core.worked_serve core₀
      split at hsignal
      · obtain rfl := Option.some.inj hsignal
        exact ⟨hserve.keepAlive, hserve.pingReq_not_mem hqueue, hserve.silent hqueue⟩
      · cases hsignal
  · cases hsignal

/-- What a packet leads to means to the keep-alive that it was heard, and answered when
the packet is a PINGRESP. -/
theorem follows_routing (core : Core) (p : Packet) : (c.routed core p).core.keepAlive
    = core.keepAlive.follows (Log.stamp c.now (c.routing core p)) := by
  have hrest : ∀ e ∈ (c.routed core p).events
      ++ (c.routed core p).notice.toList.map c.notification, e.isPulse = false := by
    refine List.forall_mem_append.mpr ⟨fun e he => ?_, fun e he => ?_⟩
    · obtain ⟨q, reason, rfl⟩ := Core.exists_untracked_of_route he
      rfl
    · obtain ⟨n, -, rfl⟩ := List.mem_map.mp he
      rfl
  exact (Core.keepAlive_route _ p).trans (KeepAlive.follows_stamp hrest _).symm

/-- A keep-alive follows what a loop takes in, and no PINGREQ is part of that. -/
theorem paces_taken {core₁ : Core} {taken : List Event} (hloop : c.loop.core? = some core)
    (h : c.taken? = some (core₁, taken)) :
    core₁.keepAlive = core.keepAlive.follows (Log.stamp c.now taken) ∧
      ∀ failure, .wrote .pingReq failure ∉ taken := by
  obtain ⟨core₀, hparked, htaken⟩ := taken_of_taken? h
  obtain rfl := eq_of_running hloop hparked
  cases htaken with
  | @request r inbox =>
      obtain ⟨p, ids, haccept, -⟩ := Core.accept_cases { core₀ with inbox } r
      rw [haccept]
      exact ⟨rfl, by simp⟩
  | packet =>
      refine ⟨follows_routing _ _, fun failure hwrote => ?_⟩
      rcases mem_routing hwrote with hp | ⟨q, reason, hp⟩ | ⟨n, -, hp⟩ <;> cases hp
  | pause => exact ⟨rfl, by simp⟩

/-- The keep-alive of a client follows what happens in a turn, and a PINGREQ is handed to
the transport by a loop that looks at its keep-alive only. -/
theorem pulse_turn {events : List Event} {c' : Client} (hloop : c.loop.core? = some core)
    (hqueue : .pingReq ∉ core.pending) (h : c.Turned events c') :
    c.Paces core events c' ∧
      ((∃ failure, .wrote .pingReq failure ∈ events) → c.taken?.isSome = true) := by
  have hsilent : ∀ {log : List Event}, (∀ e ∈ log, e.isPulse = false) →
      (∃ failure, .wrote .pingReq failure ∈ log) → c.taken?.isSome = true :=
    fun hlog ⟨failure, hwrote⟩ => absurd hwrote (Log.pingReq_not_mem hlog failure)
  -- A loop that loses its connection does not write any more.
  have hlost : ∀ (core₁ : Core) (reason : ClientError),
      ∀ e ∈ (conclude core₁ (.lost reason)).2.1, e.isPulse = false := by
    intro core₁ reason e he
    cases he
  cases h with
  | still =>
      refine ⟨fun core' hcore' => ?_, hsilent (List.forall_mem_nil _)⟩
      obtain rfl := Option.some.inj (hloop.symm.trans hcore')
      rfl
  | @served core₀ htop hserved =>
      obtain rfl := eq_of_running hloop htop
      have hserve := Core.worked_serve core₀
      refine ⟨fun core' hcore' => ?_, hsilent (hserve.silent hqueue)⟩
      obtain rfl := Option.some.inj hcore'
      exact hserve.follows hqueue c.now
  | @unwritten core₀ reason htop hfailed =>
      obtain rfl := eq_of_running hloop htop
      have hserve := Core.worked_serve core₀
      refine ⟨paces_finish (hserve.follows hqueue c.now) (hlost _ reason), hsilent ?_⟩
      exact List.forall_mem_append.mpr ⟨hserve.silent hqueue, silent_finish_lost c _ reason⟩
  | @looked core₁ taken htaken hticked =>
      refine ⟨fun core' hcore' => ?_, fun _ => by rw [htaken]; rfl⟩
      obtain rfl := Option.some.inj hcore'
      rw [Core.follows_tick, (paces_taken hloop htaken).1, Log.stamp_append,
        KeepAlive.follows_append]
  | @gaveUp core₁ taken reason htaken hticked =>
      refine ⟨?_, fun _ => by rw [htaken]; rfl⟩
      rw [← List.append_assoc]
      refine paces_finish ?_ (hlost _ reason)
      rw [Core.follows_tick, (paces_taken hloop htaken).1, Log.stamp_append,
        KeepAlive.follows_append]
  | @unread core₀ reason incoming hparked hinbox hincoming htimeout =>
      obtain rfl := eq_of_running hloop hparked
      refine ⟨?_, hsilent (silent_finish_lost c _ reason)⟩
      rw [← List.nil_append (c.finish _ (.lost reason)).2]
      exact paces_finish rfl (hlost _ reason)
  | broken =>
      refine ⟨(fun core' hcore' => by cases hcore'), ?_⟩
      rintro ⟨failure, hwrote⟩
      rcases mem_routing hwrote with hp | ⟨q, reason, hp⟩ | ⟨n, -, hp⟩ <;> cases hp

/-- It follows what happens when the client disconnects, and no PINGREQ is part of that. -/
theorem pulse_disconnect {graceful : Bool} {events : List Event} {c' : Client}
    {failure : Option ClientError} (hloop : c.loop.core? = some core)
    (hqueue : .pingReq ∉ core.pending) (h : c.Parted graceful events c' failure) :
    c.Paces core events c' ∧ ∀ failure, .wrote .pingReq failure ∉ events := by
  cases h with
  | @resting core₀ hrest =>
      refine ⟨fun core' hcore' => ?_, by simp⟩
      obtain rfl := Option.some.inj hcore'
      rcases hrest with hrest | hrest <;> rw [hrest] at hloop <;>
        obtain rfl := Option.some.inj hloop <;> rfl
  | destroyed hrest | gone hrest =>
      rw [hrest] at hloop
      cases hloop
  -- The pass fails before the loop sees the signal, and the connection is lost.
  | @unwritten core₀ reason htop hfailed =>
      obtain rfl := eq_of_running hloop htop
      have hserve := Core.worked_serve core₀
      refine ⟨paces_collect (paces_finish (hserve.follows hqueue c.now) ?_),
        Log.pingReq_not_mem ?_⟩
      · intro e he
        cases he
      · exact List.forall_mem_append.mpr
          ⟨hserve.silent hqueue, silent_finish_lost c _ reason⟩
  -- The loop sees the signal. A graceful end passes over the queue once more.
  | @stopped core₁ hsignal =>
      obtain ⟨hkeep, hqueue', hlife⟩ := silent_of_signalled? hloop hqueue hsignal
      have hconclude := silent_conclude hqueue' (.shutdown graceful)
      refine ⟨paces_collect (paces_finish ?_ hconclude), Log.pingReq_not_mem ?_⟩
      · rw [KeepAlive.follows_stamp hlife]
        exact hkeep
      · exact List.forall_mem_append.mpr ⟨hlife, List.forall_mem_append.mpr
          ⟨hconclude, by simp [Event.isPulse, notification]⟩⟩

/-- It follows what happens when the client connects, and no PINGREQ is part of that. -/
theorem pulse_connect {opening : Option ClientError} {events : List Event} {c' : Client}
    {failure : Option ClientError} (hloop : c.loop.core? = some core)
    (h : c.Joined opening events c' failure) :
    c.Paces core events c' ∧ ∀ failure, .wrote .pingReq failure ∉ events := by
  have hsame : c.Paces core [] c := by
    intro core' hcore'
    obtain rfl := Option.some.inj (hloop.symm.trans hcore')
    rfl
  have hcore : ∀ {core₀}, c.loop = .idle core₀ ∨ c.loop = .finished core₀ → core₀ = core := by
    intro core₀ hrest
    rcases hrest with hrest | hrest <;> rw [hrest] at hloop <;> exact Option.some.inj hloop
  cases h with
  | already | stuck => exact ⟨hsame, by simp⟩
  -- An attempt that fails leaves the keep-alive as it was.
  | @refused core₀ events failure link hdown hrest hfailed =>
      obtain rfl := hcore hrest
      refine ⟨fun core' hcore' => ?_, fun failure hwrote => ?_⟩
      · obtain rfl := Option.some.inj hcore'
        exact (KeepAlive.follows_stamp hfailed.silent _).symm
      · exact Log.pingReq_not_mem hfailed.silent failure hwrote
  -- Only the acceptance counts, and it starts the keep-alive anew.
  | @made core₀ link hdown hrest =>
      obtain rfl := hcore hrest
      obtain ⟨forgotten, hresume⟩ := Core.resume_events { core₀ with link } c.now
      rw [hresume]
      refine ⟨fun core' hcore' => ?_, fun failure hwrote => ?_⟩
      · obtain rfl := Option.some.inj hcore'
        rw [Log.stamp_append, KeepAlive.follows_append,
          KeepAlive.follows_stamp core₀.silent_greeting]
        exact Core.keepAlive_resume _ _
      · rcases List.mem_append.mp hwrote with hwrote | hwrote
        · exact Log.pingReq_not_mem core₀.silent_greeting failure hwrote
        · cases List.mem_singleton.mp hwrote
  | destroyed hdown hrest =>
      rw [hrest] at hloop
      cases hloop

/-- The keep-alive of a client follows its log, and a PINGREQ is handed to the transport
by a loop that looks at its keep-alive only. -/
theorem pulse (c : Client) (a : Action) (hloop : c.loop.core? = some core)
    (hqueue : .pingReq ∉ core.pending) :
    c.Paces core (c.step a).2.1 (c.step a).1 ∧
      ((∃ failure, .wrote .pingReq failure ∈ (c.step a).2.1) →
        a = .turn ∧ c.taken?.isSome = true) := by
  have h := c.stepped a
  -- What an action does is told by its inversion, not by the definition of a step.
  generalize (c.step a).2.1 = events at h ⊢
  generalize (c.step a).1 = c' at h ⊢
  cases h with
  | turn h =>
      obtain ⟨hpaces, hlooked⟩ := pulse_turn hloop hqueue h
      exact ⟨hpaces, fun hwrote => ⟨rfl, hlooked hwrote⟩⟩
  | disconnect h =>
      obtain ⟨hpaces, hnone⟩ := pulse_disconnect hloop hqueue h
      exact ⟨hpaces, fun ⟨failure, hwrote⟩ => absurd hwrote (hnone failure)⟩
  | connect h =>
      obtain ⟨hpaces, hnone⟩ := pulse_connect hloop h
      exact ⟨hpaces, fun ⟨failure, hwrote⟩ => absurd hwrote (hnone failure)⟩
  | aside f hsame hconnected hkeep hevents =>
      have hsilent : ∀ e ∈ events, e.isPulse = false := by
        intro e he
        obtain ⟨⟨r, rfl⟩, -⟩ := hevents e he
        rfl
      refine ⟨fun core' hcore' => ?_, fun ⟨failure, hwrote⟩ => ?_⟩
      · rw [hsame, core?_mapCore, hloop] at hcore'
        obtain rfl := Option.some.inj hcore'
        rw [KeepAlive.follows_stamp hsilent]
        exact hkeep core
      · cases hsilent _ hwrote

/-! ### Looking at the keep-alive -/

/-- What a loop does after it looked at its keep-alive. -/
theorem looked_cases (c : Client) (core : Core) :
    (core.keepAlive.poll c.now = .nothing ∧ (c.endTurn core).2 = []) ∨
    (core.keepAlive.poll c.now = .giveUp ∧ (c.endTurn core).2
      = [.closed, c.notification (.connectionLost .pingExpired)]) ∨
    (core.keepAlive.poll c.now = .ping ∧ ∃ failure rest,
      (c.endTurn core).2 = .wrote .pingReq failure :: rest ∧ ∀ e ∈ rest, e.isPulse = false) := by
  have hend := endTurn_cases c core
  have h := core.ticked c.now
  generalize core.tick c.now = result at h hend
  rcases hend with ⟨hgoes, hend⟩ | ⟨reason, hends, hend⟩ <;> rw [hend]
  -- The loop goes on: nothing was due, or a PINGREQ was written or timed out.
  · cases h with
    | quiet hpoll => exact Or.inl ⟨hpoll, rfl⟩
    | pinged link hpoll => exact Or.inr (Or.inr ⟨hpoll, none, [], rfl, List.forall_mem_nil _⟩)
    | missed link hpoll => exact Or.inr (Or.inr ⟨hpoll, _, [], rfl, List.forall_mem_nil _⟩)
    | expired | failed => cases hgoes
  · cases h with
    -- The loop ends: a PINGREQ has expired, or could not be written.
    | expired hpoll =>
        obtain rfl := Option.some.inj hends
        exact Or.inr (Or.inl ⟨hpoll, rfl⟩)
    | failed link hpoll => exact Or.inr (Or.inr ⟨hpoll, _, _, rfl, silent_finish_lost c _ reason⟩)
    | quiet | pinged | missed => cases hends

/-- The log of a run, with the times at which its events happen. -/
def stamped (c : Client) : List Action → List (Nat × Event)
  | [] => []
  | a :: as => Log.stamp c.now (c.step a).2.1 ++ (c.step a).1.stamped as

/-- It is the log of the run. -/
theorem map_snd_stamped (c : Client) (as : List Action) :
    (c.stamped as).map Prod.snd = (c.run as).2 := by
  induction as generalizing c with
  | nil => rfl
  | cons a as ih =>
      show (Log.stamp c.now (c.step a).2.1 ++ (c.step a).1.stamped as).map Prod.snd
        = (c.step a).2.1 ++ ((c.step a).1.run as).2
      rw [List.map_append, ih, Log.stamp, List.map_map]
      exact congrArg (· ++ _) (List.map_id _)

/-- The stamped log of a client says what its keep-alive knows, and that at most one
PINGREQ is unanswered. -/
structure Paced (interval : Nat) (c : Client) (log : List (Nat × Event)) : Prop where
  keepAlive : ∀ core, c.loop.core? = some core →
    core.keepAlive = (KeepAlive.start interval 0).follows log
  one : (Log.unanswered log).length ≤ 1
  wellFormed : ∀ core, c.loop.core? = some core → core.session.WellFormed
  queue : ∀ core, c.loop.core? = some core → .pingReq ∉ core.pending

/-- What a loop that looks at its keep-alive is going to do is written in the log. -/
theorem Paced.taken {interval : Nat} {log : List (Nat × Event)} (h : c.Paced interval log)
    {taken : List Event} (htaken : c.taken? = some (core, taken)) :
    core.keepAlive
        = (KeepAlive.start interval 0).follows (log ++ Log.stamp c.now taken) ∧
      (Log.unanswered (log ++ Log.stamp c.now taken)).length ≤ 1 := by
  obtain ⟨core₀, hparked, -⟩ := taken_of_taken? htaken
  have hloop : c.loop.core? = some core₀ := by
    rw [hparked]
    rfl
  obtain ⟨hkeep, hnone⟩ := paces_taken hloop htaken
  refine ⟨?_, ?_⟩
  · rw [KeepAlive.follows_append, ← h.keepAlive core₀ hloop]
    exact hkeep
  · rw [Log.unanswered_append]
    exact (Log.length_foldl_await_le (hnone none) _).trans h.one

/-- What the keep-alive asks for then is written in the log. -/
theorem Paced.poll {interval : Nat} {log : List (Nat × Event)} (h : c.Paced interval log)
    (hheard : c.loop.isRunning = true → Log.heard log ≠ []) {taken : List Event}
    (htaken : c.taken? = some (core, taken)) :
    (core.keepAlive.poll c.now = .ping ↔
      Log.PingDue interval c.now (log ++ Log.stamp c.now taken)) ∧
    (core.keepAlive.poll c.now = .giveUp ↔
      Log.PingExpired interval c.now (log ++ Log.stamp c.now taken)) := by
  obtain ⟨hkeep, hone⟩ := h.taken htaken
  obtain ⟨core₀, hparked, -⟩ := taken_of_taken? htaken
  rw [hkeep]
  refine ⟨KeepAlive.poll_eq_ping_iff ?_, KeepAlive.poll_eq_giveUp hone⟩
  rw [Log.heard_append]
  exact List.append_ne_nil_of_left_ne_nil (hheard (congrArg Loop.isRunning hparked)) _

/-- After an action still at most one PINGREQ is unanswered. -/
theorem Paced.one_step {interval : Nat} {log : List (Nat × Event)} (h : c.Paced interval log)
    {a : Action} (hlooked : (∃ failure, .wrote .pingReq failure ∈ (c.step a).2.1) →
      a = .turn ∧ c.taken?.isSome = true) :
    (Log.unanswered (log ++ Log.stamp c.now (c.step a).2.1)).length ≤ 1 := by
  by_cases hwrote : .wrote .pingReq none ∈ (c.step a).2.1
  · obtain ⟨rfl, hsome⟩ := hlooked ⟨none, hwrote⟩
    obtain ⟨⟨core, taken⟩, htaken⟩ := Option.isSome_iff_exists.mp hsome
    obtain ⟨hkeep, hone⟩ := h.taken htaken
    have hturn : (c.step .turn).2.1 = taken ++ (c.endTurn core).2 :=
      congrArg Prod.snd (turn_of_taken htaken)
    rw [hturn, Log.stamp_append, ← List.append_assoc, Log.unanswered_append]
    rcases looked_cases c core with ⟨-, hend⟩ | ⟨-, hend⟩ | ⟨hpoll, failure, rest, hend, hrest⟩ <;>
      rw [hend]
    · exact hone
    · exact hone
    · -- A PINGREQ is written when there is no other.
      rw [hkeep] at hpoll
      rw [KeepAlive.unanswered_of_ping hpoll]
      show ((Log.stamp c.now rest).foldl Log.await
        (Log.await [] (c.now, .wrote .pingReq failure))).length ≤ 1
      rw [Log.foldl_await hrest]
      cases failure with
      | none => exact Nat.le_refl 1
      | some reason => exact Nat.zero_le 1
  · rw [Log.unanswered_append]
    exact (Log.length_foldl_await_le hwrote _).trans h.one

/-- It stays so after every action. -/
theorem paced_step {interval : Nat} {log : List (Nat × Event)} (h : c.Paced interval log)
    (a : Action) :
    (c.step a).1.Paced interval (log ++ Log.stamp c.now (c.step a).2.1) := by
  cases hloop : c.loop.core? with
  -- No core is left, so nothing happens any more.
  | none =>
      obtain ⟨hevents, hloop'⟩ := step_of_core?_eq_none c a hloop
      have hnone : ∀ {P : Core → Prop} core, (c.step a).1.loop.core? = some core → P core := by
        intro P core hcore
        cases hloop'.symm.trans hcore
      rw [hevents, Log.stamp, List.map_nil, List.append_nil]
      exact ⟨hnone, h.one, hnone, hnone⟩
  | some core =>
      obtain ⟨hpaces, hlooked⟩ := pulse c a hloop (h.queue core hloop)
      obtain ⟨core', hmoves, hlast⟩ := reached_step c a core hloop
      have hwell := h.wellFormed core hloop
      refine ⟨?_, ?_, ?_, ?_⟩
      -- The keep-alive goes on from where the log before has brought it.
      · intro last hcore
        rw [KeepAlive.follows_append, ← h.keepAlive core hloop]
        exact hpaces last hcore
      · exact h.one_step hlooked
      · intro last hcore
        obtain rfl := hlast last hcore
        exact Core.wellFormed_moves hwell hmoves
      · intro last hcore
        obtain rfl := hlast last hcore
        have hqueue := Core.pending_moves (P := (· ≠ .pingReq))
          (fun p hp => by rintro rfl; cases hp)
          (fun p q hq => by rintro rfl; cases p <;> simp [Packet.replies] at hq) hwell hmoves
          (fun p hp => by rintro rfl; exact h.queue core hloop hp)
        exact fun hmem => hqueue _ hmem rfl

/-- A client that was never connected has an empty log, and its keep-alive is at rest. -/
theorem paced_new (settings : Settings) {session : Session} (link : Link)
    (hsession : session.WellFormed) :
    (new settings session link).Paced settings.keepAliveInterval [] := by
  have hcore : ∀ {P : Core → Prop}, P (.new settings session link 0) →
      ∀ core, (new settings session link).loop.core? = some core → P core := by
    intro P hnew core hcore
    obtain rfl := Option.some.inj hcore
    exact hnew
  exact ⟨hcore rfl, Nat.zero_le 1, hcore hsession, hcore List.not_mem_nil⟩

/-- It stays so after every run. -/
theorem paced_run {interval : Nat} {log : List (Nat × Event)} (h : c.Paced interval log)
    (as : List Action) : (c.run as).1.Paced interval (log ++ c.stamped as) := by
  induction as generalizing c log with
  | nil =>
      rw [stamped, List.append_nil]
      exact h
  | cons a as ih =>
      have hrest := ih (paced_step h a)
      rw [List.append_assoc] at hrest
      exact hrest

/-- A loop that runs has heard from the server. -/
theorem heard_ne_nil_of_isRunning (settings : Settings) (session : Session) (link : Link)
    (as : List Action)
    (hrunning : ((new settings session link).run as).1.loop.isRunning = true) :
    Log.heard ((new settings session link).stamped as) ≠ [] := by
  have hpresent := present_run (present_new settings session link) as
  obtain ⟨before, forgotten, life, hlog, -⟩ :=
    hpresent.isOpen_iff.mp (hpresent.running hrunning)
  have hmem : .established forgotten ∈ ((new settings session link).run as).2 := by
    rw [← List.nil_append ((new settings session link).run as).2, hlog]
    simp
  rw [← map_snd_stamped] at hmem
  obtain ⟨⟨time, e⟩, hstamped, rfl⟩ := List.mem_map.mp hmem
  exact List.ne_nil_of_mem (List.mem_filterMap.mpr ⟨_, hstamped, rfl⟩)

/-- When a client pings, and when it gives up, after every run. The hypothesis on the
session holds of an empty one, and of every session that a client leaves.

* At most one PINGREQ is unanswered.
* When a loop looks at its keep-alive, after it took something in, it hands a PINGREQ to
  the transport exactly when none is unanswered and the client heard nothing from the
  server for more than half the interval. It gives up exactly when a PINGREQ was written
  on the connection more than half the interval ago and no PINGRESP came in since. It
  does nothing in any other case.
* At no other time is a PINGREQ handed to the transport, or is the application told of
  one that has expired, unless the transport itself fails in that way.
* Without keep-alive there is never a PINGREQ. -/
theorem pings_exact (settings : Settings) {s : Session} (link : Link) (as : List Action)
    (hs : s.WellFormed) :
    let c := ((new settings s link).run as).1
    let log := (new settings s link).stamped as
    let interval := settings.keepAliveInterval
    (Log.unanswered log).length ≤ 1 ∧
    (∀ core taken, c.taken? = some (core, taken) →
      (∀ failure, .wrote .pingReq failure ∉ taken) ∧
      ∃ looked, (c.step .turn).2.1 = taken ++ looked ∧
        ((∃ failure rest, looked = .wrote .pingReq failure :: rest) ↔
          Log.PingDue interval c.now (log ++ Log.stamp c.now taken)) ∧
        (looked = [.closed, c.notification (.connectionLost .pingExpired)] ↔
          Log.PingExpired interval c.now (log ++ Log.stamp c.now taken)) ∧
        (looked = [] ↔ ¬ Log.PingDue interval c.now (log ++ Log.stamp c.now taken) ∧
          ¬ Log.PingExpired interval c.now (log ++ Log.stamp c.now taken))) ∧
    (∀ a failure, .wrote .pingReq failure ∈ (c.step a).2.1 →
      a = .turn ∧ c.taken?.isSome = true) ∧
    (∀ a handler, .notified (.connectionLost .pingExpired) handler ∈ (c.step a).2.1 →
      (a = .turn ∧ ∃ core taken, c.taken? = some (core, taken) ∧
        Log.PingExpired interval c.now (log ++ Log.stamp c.now taken)) ∨
      .pingExpired ∈ Log.faults c.turn.2 ∨
      ∃ phase core incoming, c.loop = .running phase core ∧
        core.link.incoming = .error .pingExpired :: incoming) ∧
    (settings.keepAlive = 0 → ∀ a failure, .wrote .pingReq failure ∉ (c.step a).2.1) := by
  intro c log interval
  have hpaced : c.Paced interval log := paced_run (paced_new settings link hs) as
  have hheard : c.loop.isRunning = true → Log.heard log ≠ [] :=
    heard_ne_nil_of_isRunning settings s link as
  have hlooked : ∀ a failure, .wrote .pingReq failure ∈ (c.step a).2.1 →
      a = .turn ∧ c.taken?.isSome = true := by
    intro a failure hwrote
    cases hloop : c.loop.core? with
    | none =>
        rw [(step_of_core?_eq_none c a hloop).1] at hwrote
        cases hwrote
    | some core => exact (pulse c a hloop (hpaced.queue core hloop)).2 ⟨failure, hwrote⟩
  refine ⟨hpaced.one, ?_, hlooked, ?_, ?_⟩
  · intro core taken htaken
    obtain ⟨hping, hgiveUp⟩ := hpaced.poll hheard htaken
    obtain ⟨core₀, hparked, -⟩ := taken_of_taken? htaken
    refine ⟨(paces_taken (congrArg Loop.core? hparked) htaken).2, (c.endTurn core).2,
      congrArg Prod.snd (turn_of_taken htaken), ?_⟩
    -- What is due is what the keep-alive answers, and each answer has its own events.
    rw [← hping, ← hgiveUp]
    rcases looked_cases c core with
      ⟨hnothing, hend⟩ | ⟨hgave, hend⟩ | ⟨hpinged, failure, rest, hend, -⟩
    · simp [hnothing, hend]
    · simp [hgave, hend]
    · simp [hpinged, hend]
  · intro a handler htold
    -- The application is told of the end of a connection with its cause.
    cases (ends_of_notified rfl htold).1 with
    | unwritten hturn hfault => exact Or.inr (Or.inl hfault)
    | unread hparked hinbox hincoming => exact Or.inr (Or.inr ⟨_, _, _, hparked, hincoming⟩)
    | @expired core taken htaken hexpired =>
        refine Or.inl ⟨rfl, core, taken, htaken, ?_⟩
        exact (hpaced.poll hheard htaken).2.mp (KeepAlive.poll_eq_giveUp_iff.mpr hexpired)
  -- With an interval of 0 a PINGREQ is never due.
  · intro hoff a failure hwrote
    obtain ⟨rfl, hsome⟩ := hlooked a failure hwrote
    obtain ⟨⟨core, taken⟩, htaken⟩ := Option.isSome_iff_exists.mp hsome
    obtain ⟨core₀, hparked, -⟩ := taken_of_taken? htaken
    have hzero : interval = 0 := by
      show settings.keepAliveInterval = 0
      rw [Settings.keepAliveInterval, hoff]
      rfl
    rw [show (c.step .turn).2.1 = taken ++ (c.endTurn core).2 from
      congrArg Prod.snd (turn_of_taken htaken)] at hwrote
    rcases List.mem_append.mp hwrote with hwrote | hwrote
    · exact (paces_taken (congrArg Loop.core? hparked) htaken).2 failure hwrote
    · rcases looked_cases c core with ⟨-, hend⟩ | ⟨-, hend⟩ | ⟨hpinged, -⟩
      · rw [hend] at hwrote
        cases hwrote
      · simp [hend, notification] at hwrote
      · have hdue := (hpaced.poll hheard htaken).1.mp hpinged
        exact absurd hdue.1 (hzero ▸ Nat.lt_irrefl 0)

/-- A keep-alive of two seconds. -/
def pingingSettings : Settings :=
  { (default : Settings) with keepAlive := 2 }

/-- The server accepts the connection and is not heard of again. -/
def silentRun : List Action :=
  [.expect [.ok (.connAck false .accepted)], .connect none, .turn, .elapse 1000000001,
    .arrive [.error .timeout], .turn, .turn, .elapse 1000000001, .arrive [.error .timeout]]

/-- The client gives up, because its PINGREQ has expired. -/
theorem pings_exact_silentRun :
    Session.empty.WellFormed ∧
    (((new pingingSettings .empty default).run silentRun).1.step .turn).2.1
      = [.closed, .notified (.connectionLost .pingExpired) none] ∧
    ∃ core, ((new pingingSettings .empty default).run silentRun).1.taken? = some (core, []) ∧
      Log.PingExpired 2000000000 2000000002
        ((new pingingSettings .empty default).stamped silentRun ++ Log.stamp 2000000002 []) := by
  have htaken : ((new pingingSettings .empty default).run silentRun).1.taken?.map Prod.snd
      = some [] := by
    decide
  have hevents : (((new pingingSettings .empty default).run silentRun).1.step .turn).2.1
      = [.closed, .notified (.connectionLost .pingExpired) none] := by
    decide
  obtain ⟨⟨core, taken⟩, htaken, rfl⟩ := Option.map_eq_some_iff.mp htaken
  obtain ⟨-, hlook, -⟩ := pings_exact pingingSettings default silentRun Session.wellFormed_empty
  obtain ⟨-, looked, hlooked, -, hexpired, -⟩ := hlook core [] htaken
  refine ⟨Session.wellFormed_empty, hevents, core, htaken, hexpired.mp ?_⟩
  exact (hlooked.symm.trans hevents)

end Client

end Mqtt
