import Mqtt.Proofs.Client.Presence

/-!
# `Mqtt.Proofs.Client.Report`: the report of the end of a connection

A connection ends for one of the causes of `Client.Ends`, and the application is told
of it once.

* `Client.notified_of_ends`, `Client.ends_of_notified`: the application is told of an
  end exactly when there is a cause, and of that one.
* `Client.connections_reported`: with this every connection of a run that was made
  ends in one report, and there are no others.
-/

set_option autoImplicit false

namespace Mqtt

namespace Core

/-- Looking at the keep-alive ends the connection when a PINGREQ cannot be written. -/
theorem tick_of_fault {core : Core} {now : Nat} {reason : ClientError}
    (h : reason ∈ Log.faults (core.tick now).2.1) : (core.tick now).2.2 = some reason := by
  have hticked := core.ticked now
  generalize core.tick now = result at h hticked ⊢
  cases hticked with
  | quiet | expired | pinged => cases h
  | missed link hpoll htimeout => simp [Log.faults, Event.fault?, htimeout] at h
  | @failed link failure hpoll htimeout =>
      obtain rfl : reason = failure := by simpa [Log.faults, Event.fault?, htimeout] using h
      rfl

/-- So does a PINGREQ that was left unanswered. -/
theorem tick_of_expired {core : Core} {now : Nat} (h : core.keepAlive.isExpired now = true) :
    core.tick now = (core, [], some .pingExpired) := by
  unfold tick
  rw [KeepAlive.poll_eq_giveUp_iff.mpr h]

/-- A failure of the queue is what parting ends with. -/
theorem part_of_fault (core : Core) {reason : ClientError}
    (h : reason ∈ Log.faults core.serve.2.1) : core.part.2.2 = some reason := by
  rw [(worked_serve core).faults] at h
  rcases core.part_cases with ⟨reason', hfailed, hpart⟩ | ⟨hserved, hpart⟩
  · rw [hfailed] at h
    rw [hpart, List.mem_singleton.mp h]
  · rw [hserved] at h
    cases h

/-- Otherwise it ends as the write of DISCONNECT does. -/
theorem part_of_served (core : Core) (h : Log.faults core.serve.2.1 = []) :
    core.part.2.2 = (core.serve.1.write .disconnect).1 := by
  rw [(worked_serve core).faults] at h
  rcases core.part_cases with ⟨reason, hfailed, hpart⟩ | ⟨hserved, hpart⟩
  · rw [hfailed] at h
    cases h
  · rw [hpart]

end Core

namespace Client

variable {c : Client} {a : Action} {n : Notice}

/-! ### A cause leads to a report -/

/-- A loop that ends tells the application. -/
theorem notified_finish (c : Client) (core : Core) (ending : Ending) :
    c.notification (conclude core ending).2.2 ∈ (c.finish core ending).2 :=
  List.mem_append_right _ (List.mem_cons_of_mem _ (List.mem_singleton_self _))

/-- After it lost its connection it writes no more. -/
theorem faults_finish_lost (c : Client) (core : Core) (reason : ClientError) :
    Log.faults (c.finish core (.lost reason)).2 = [] :=
  rfl

/-- Routing a packet writes nothing, so no write fails. -/
theorem faults_routing (core : Core) (p : Packet) : Log.faults (c.routing core p) = [] := by
  refine Log.faults_eq_nil fun q failure hwrote => ?_
  rcases mem_routing hwrote with hq | ⟨r, reason, hq⟩ | ⟨m, -, hq⟩ <;> cases hq

/-- What a loop takes in holds no write. -/
theorem faults_taken {core : Core} {taken : List Event} (h : c.taken? = some (core, taken)) :
    Log.faults taken = [] := by
  obtain ⟨core₀, -, htaken⟩ := taken_of_taken? h
  cases htaken with
  | @request r inbox => exact (Core.worked_accept { core₀ with inbox } r).faults
  | packet => exact faults_routing _ _
  | pause => rfl

/-- A write that fails for good in a turn is reported. -/
theorem notified_of_fault {reason : ClientError} (h : reason ∈ Log.faults c.turn.2) :
    c.notification (.connectionLost reason) ∈ c.turn.2 := by
  -- The write is the last of the queue or the PINGREQ. Anything else in a turn is no write.
  have hturned := c.turned
  generalize c.turn.2 = events at h hturned ⊢
  generalize c.turn.1 = c' at hturned
  cases hturned with
  | still => cases h
  | @served core hloop hserved =>
      rw [(Core.worked_serve core).faults, hserved] at h
      cases h
  | @unwritten core reason' hloop hfailed =>
      rw [Log.faults_append, (Core.worked_serve core).faults, hfailed, faults_finish_lost] at h
      obtain rfl : reason = reason' := List.mem_singleton.mp h
      exact List.mem_append_right _ (notified_finish c _ _)
  | looked htaken hticked =>
      rw [Log.faults_append, faults_taken htaken] at h
      cases hticked.symm.trans (Core.tick_of_fault h)
  | @gaveUp core taken reason' htaken hticked =>
      rw [Log.faults_append, Log.faults_append, faults_taken htaken, faults_finish_lost,
        List.append_nil] at h
      obtain rfl := Option.some.inj (hticked.symm.trans (Core.tick_of_fault h))
      exact List.mem_append_right _ (List.mem_append_right _ (notified_finish c _ _))
  | unread => cases h
  | broken =>
      rw [faults_routing] at h
      cases h

/-- Disconnecting a loop that is at the top and loses its connection there does nothing
else. -/
theorem Parted.events_of_fault {core : Core} {reason : ClientError} {graceful : Bool}
    {events : List Event} {c' : Client} {failure : Option ClientError}
    (hparted : c.Parted graceful events c' failure) (hloop : c.loop = .running .top core)
    (h : reason ∈ Log.faults c.turn.2) : events = c.turn.2 := by
  cases hparted with
  | resting hrest => rcases hrest with hrest | hrest <;> cases hloop.symm.trans hrest
  | destroyed hrest | gone hrest => cases hloop.symm.trans hrest
  | unwritten hloop' hfailed => rw [turn_of_unwritten hloop' hfailed]
  | stopped hsignal =>
      -- The queue was served, so no write failed.
      cases hserve : core.serve.2.2 with
      | none =>
          rw [turn_of_served hloop hserve, (Core.worked_serve core).faults, hserve] at h
          cases h
      | some reason' => simp [signalled?, hloop, hserve] at hsignal

/-- Disconnecting a loop that sees the signal ends it. -/
theorem Parted.of_signalled? {core : Core} {graceful : Bool} {events : List Event}
    {c' : Client} {failure : Option ClientError} (hparted : c.Parted graceful events c' failure)
    (hsignal : c.signalled? = some core) :
    events = c.unsignalled ++ (c.finish core (.shutdown graceful)).2 ∧
      c' = (c.finish core (.shutdown graceful)).1.collect.1 := by
  cases hparted with
  | resting hrest => rcases hrest with hrest | hrest <;> simp [signalled?, hrest] at hsignal
  | destroyed hrest | gone hrest => simp [signalled?, hrest] at hsignal
  | unwritten hloop hfailed => simp [signalled?, hloop, hfailed] at hsignal
  | stopped hsignal' =>
      obtain rfl := Option.some.inj (hsignal.symm.trans hsignal')
      exact ⟨rfl, rfl⟩

/-- Every cause of an end is reported. -/
theorem notified_of_ends (h : c.Ends a n) : c.notification n ∈ (c.step a).2.1 := by
  -- The three causes below that belong to a disconnect end in `finish`, on the core that sees
  -- the signal.
  have hdisconnect : ∀ {core graceful}, c.signalled? = some core →
      c.notification (conclude core (.shutdown graceful)).2.2
        ∈ (c.step (.disconnect graceful)).2.1 := by
    intro core graceful hsignal
    show _ ∈ (c.disconnect graceful).2.1
    rw [((c.parted graceful).of_signalled? hsignal).1]
    exact List.mem_append_right _ (notified_finish c core _)
  cases h with
  | unwritten hturn hfault =>
      rcases hturn with rfl | ⟨graceful, core, rfl, hloop⟩
      · exact notified_of_fault hfault
      · show _ ∈ (c.disconnect graceful).2.1
        rw [(c.parted graceful).events_of_fault hloop hfault]
        exact notified_of_fault hfault
  | @unread core reason incoming hloop hinbox hincoming htimeout =>
      have hturn : c.turn = c.wake core := by simp only [turn, hloop]
      show _ ∈ c.turn.2
      rw [hturn, wake_of_failure c hinbox hincoming, htimeout, if_neg Bool.false_ne_true]
      exact notified_finish c _ _
  | @expired core taken htaken hexpired =>
      have hend : c.endTurn core = c.finish core (.lost .pingExpired) := by
        unfold endTurn
        rw [Core.tick_of_expired hexpired]
        rfl
      show _ ∈ c.turn.2
      rw [turn_of_taken htaken, hend]
      exact List.mem_append_right _ (notified_finish c _ _)
  | dropped hsignal => exact hdisconnect hsignal
  | @unflushed core reason hsignal hfault =>
      -- A part that failed concludes with its own failure, so the cause names the notice of
      -- `conclude`.
      rw [show Notice.disconnected (some reason) = (conclude core (.shutdown true)).2.2 from
        congrArg Notice.disconnected (core.part_of_fault hfault).symm]
      exact hdisconnect hsignal
  | @parted core hsignal hserved =>
      rw [show Notice.disconnected (core.serve.1.write .disconnect).1
          = (conclude core (.shutdown true)).2.2 from
        congrArg Notice.disconnected (core.part_of_served hserved).symm]
      exact hdisconnect hsignal

/-! ### A report has a cause -/

/-- What the application is told of an end. -/
theorem isReport_of_ends (h : c.Ends a n) : n.isReport = true := by
  cases h <;> rfl

/-- An action in which the application is told of an end ends the connection for the
cause that is told. It comes last, right after the transport was closed. -/
theorem ends_of_notified {handler : Option Handler} (hn : n.isReport = true)
    (h : .notified n handler ∈ (c.step a).2.1) :
    c.Ends a n ∧
    (∃ life, (c.step a).2.1 = life ++ [.closed, .notified n (c.handlers n.kind)] ∧
      Log.Steady life) ∧
    (c.step a).1.connected = false ∧
    ∀ core, (c.step a).1.loop.core? = some core → core.link.isOpen = false := by
  -- A report is not steady, so it can only be the last event of an action that ends a connection.
  have hloud : (Event.notified n handler).isSteady ≠ true := by
    show (!n.isReport) ≠ true
    rw [hn]
    exact Bool.false_ne_true
  have hturnover := c.turnover a
  generalize (c.step a).2.1 = events at h hturnover ⊢
  generalize (c.step a).1 = c' at hturnover ⊢
  cases hturnover with
  | stays hsteady => exact absurd (hsteady _ h) hloud
  | refused hsteady =>
      rcases hsteady _ h with hclosed | hsteady
      · cases hclosed
      · exact absurd hsteady hloud
  | made forgotten hmakes hsteady =>
      rcases List.mem_append.mp h with h | h
      · rcases hsteady _ h with hclosed | hsteady
        · cases hclosed
        · exact absurd hsteady hloud
      · cases List.mem_singleton.mp h
  | @ended life c' m hup hlife hbroken hends hreport hconnected hrunning hclosed =>
      obtain rfl : n = m := by
        rcases List.mem_append.mp h with h | h
        · exact absurd (hlife _ h) hloud
        · rcases List.mem_cons.mp h with h | h
          · cases h
          · exact (Event.notified.inj (List.mem_singleton.mp h)).1
      exact ⟨hends, ⟨life, rfl, hlife⟩, hconnected, hclosed⟩
  | broken hup hsteady => exact absurd (hsteady _ h) hloud

/-! ### Connections -/

/-- An action that makes a connection starts a loop. -/
theorem succeeds_of_establishes {a : Action} (hmakes : c.establishes a = true) :
    (c.step a).1.loop.isRunning = true ∧ ∃ forgotten, .established forgotten ∈ (c.step a).2.1 := by
  cases a with
  | connect opening =>
      rw [establishes, Bool.and_eq_true, Bool.not_eq_true', Option.isNone_iff_eq_none] at hmakes
      rcases connect_succeeds hmakes.2 with ⟨hconnected, -⟩ | ⟨-, -, hup, hmade⟩
      · cases hconnected.symm.trans hmakes.1
      · exact ⟨hup, hmade⟩
  | _ => cases hmakes

/-- Connections are made by a connect that succeeds, and by nothing else. -/
theorem established_iff (c : Client) (a : Action) :
    (∃ forgotten, .established forgotten ∈ (c.step a).2.1) ↔ c.establishes a = true := by
  constructor
  · rintro ⟨forgotten, h⟩
    -- Only `made` has an event like this; the events of the other ways are steady, or tell of
    -- an end.
    have hturnover := c.turnover a
    generalize (c.step a).2.1 = events at h hturnover
    generalize (c.step a).1 = c' at hturnover
    cases hturnover with
    | stays hsteady => cases hsteady _ h
    | refused hsteady =>
        rcases hsteady _ h with hclosed | hquiet
        · cases hclosed
        · cases hquiet
    | made forgotten' hmakes => exact hmakes
    | ended hup hlife =>
        rcases List.mem_append.mp h with h | h
        · cases hlife _ h
        · simp [notification] at h
    | broken hup hsteady => cases hsteady _ h
  · exact fun h => (succeeds_of_establishes h).2

/-- Disconnecting a client without a loop does nothing, however often. -/
theorem disconnect_of_resting {core : Core} (hloop : c.loop = .idle core ∨ c.loop = .finished core)
    (gs : List Bool) (graceful : Bool) :
    (c.run (gs.map .disconnect)).2 = [] ∧
      ((c.run (gs.map .disconnect)).1.disconnect graceful).2 = ([], none) := by
  -- The first disconnect may take a finished core back; from then on the loop is idle.
  have hfirst : ∀ {c : Client}, c.loop = .idle core ∨ c.loop = .finished core → ∀ g,
      c.disconnect g = ({ c with loop := .idle core }, [], none) := by
    intro c hloop g
    obtain ⟨loop, connected, handlers, now⟩ := c
    rcases hloop with rfl | rfl <;> rfl
  induction gs generalizing c with
  | nil => exact ⟨rfl, congrArg Prod.snd (hfirst hloop graceful)⟩
  | cons g gs ih =>
      have hnext : c.step (.disconnect g) = ({ c with loop := .idle core }, [], .ended none) := by
        simp only [step, hfirst hloop g]
      have hrun : c.run ((g :: gs).map .disconnect)
          = Client.run { c with loop := .idle core } (gs.map .disconnect) := by
        simp only [List.map_cons, run, hnext, List.nil_append]
      rw [hrun]
      exact ih (Or.inl rfl)

/-- How connections end, after every run in which no handler fails.

* Connecting makes connections, and nothing else does. The loop of a connection runs.
* A connection that was made is still there and its loop runs, or its transport was
  closed, and the application was told of the end at once.
* The application is told of the end of a connection that was made and of which it was
  not told before.
* It is told exactly when there is a cause, and of that one: a write or a read that
  fails for good and a PINGREQ that was left unanswered lose the connection; a graceful
  disconnect tells how flushing or else the write of DISCONNECT failed, if it did, and
  any other disconnect tells of no failure.
* When it is told, the transport is closed and the client does not take itself for
  connected.
* Disconnecting a client without a loop succeeds and does nothing, however often.
  Connecting one that takes itself for connected does so too. -/
theorem connections_reported (settings : Settings) (session : Session) (link : Link)
    (as : List Action) (has : as.all Action.isCalm = true) :
    let c := ((new settings session link).run as).1
    let log := ((new settings session link).run as).2
    (∀ a, ((∃ forgotten, .established forgotten ∈ (c.step a).2.1) ↔ c.establishes a = true) ∧
      (c.establishes a = true → (c.step a).1.loop.isRunning = true)) ∧
    (∀ before forgotten after, log = before ++ .established forgotten :: after →
      (Log.Steady after ∧ c.loop.isRunning = true) ∨
      ∃ life n handler later, after = life ++ .closed :: .notified n handler :: later ∧
        Log.Steady life ∧ n.isReport = true) ∧
    (∀ before n handler after, log = before ++ .notified n handler :: after →
      n.isReport = true → ∃ earlier forgotten life,
        before = earlier ++ .established forgotten :: life ++ [.closed] ∧ Log.Steady life) ∧
    (∀ a n, n.isReport = true →
      ((∃ handler, .notified n handler ∈ (c.step a).2.1) ↔ c.Ends a n)) ∧
    (∀ a n, c.Ends a n →
      (∃ life, (c.step a).2.1 = life ++ [.closed, .notified n (c.handlers n.kind)] ∧
        Log.Steady life) ∧
      (c.step a).1.connected = false ∧
      ∃ core, (c.step a).1.loop.core? = some core ∧ core.link.isOpen = false) ∧
    (c.loop.isRunning = false → ∀ (gs : List Bool) (graceful : Bool),
      (c.run (gs.map .disconnect)).2 = [] ∧
      ((c.run (gs.map .disconnect)).1.disconnect graceful).2 = ([], none)) ∧
    (c.connected = true → ∀ opening, c.connect opening = (c, [], none)) := by
  intro c log
  have hpresent : c.Present log := present_run (present_new settings session link) as
  have hcoherent : c.Coherent := coherent_run (coherent_new settings session link) as
  obtain ⟨hcalm, hcore⟩ : c.Calm ∧ c.loop.core?.isSome = true :=
    calm_run _ as has (calm_new settings session link) rfl
  -- A calm run leaves the client its core, so no handler destroyed the loop.
  have hwhole : ¬ Log.Broken log := by
    intro hbroken
    rw [core?_eq_none_of_broken hpresent hcoherent hbroken] at hcore
    cases hcore
  refine ⟨fun a => ⟨established_iff c a, fun h => (succeeds_of_establishes h).1⟩, ?_, ?_, ?_, ?_,
    ?_, ?_⟩
  · intro before forgotten after hlog
    have hspan := hpresent.span
    rw [hlog] at hspan
    rcases Span.reported_of_established (by split <;> simp) hspan with ⟨hsteady, hup⟩ | hreported
    · refine Or.inl ⟨hsteady, ?_⟩
      have hconnected : c.connected = true := by
        by_contra hdown
        rw [if_neg hdown] at hup
        cases hup
      by_contra hrunning
      exact hwhole (hpresent.broken.mpr ⟨hconnected, Bool.eq_false_iff.mpr hrunning⟩)
    · exact Or.inr hreported
  · intro before n handler after hlog hn
    have hspan := hpresent.span
    rw [hlog] at hspan
    exact Span.established_of_reported hn hspan
  · intro a n hn
    exact ⟨fun ⟨_, h⟩ => (ends_of_notified hn h).1, fun h => ⟨_, notified_of_ends h⟩⟩
  · intro a n h
    obtain ⟨-, hevents, hconnected, hclosed⟩ :=
      ends_of_notified (isReport_of_ends h) (notified_of_ends h)
    refine ⟨hevents, hconnected, ?_⟩
    have ha : a.isCalm = true := by
      cases h with
      | unwritten hturn => rcases hturn with rfl | ⟨graceful, core, rfl, -⟩ <;> rfl
      | _ => rfl
    obtain ⟨core, hlast⟩ := Option.isSome_iff_exists.mp (calm_step c a ha hcalm hcore).2
    exact ⟨core, hlast, hclosed core hlast⟩
  · intro hrunning gs graceful
    obtain ⟨core, hloop⟩ : ∃ core, c.loop = .idle core ∨ c.loop = .finished core := by
      cases hloop : c.loop with
      | idle core => exact ⟨core, Or.inl rfl⟩
      | finished core => exact ⟨core, Or.inr rfl⟩
      | running phase core =>
          rw [hloop] at hrunning
          cases hrunning
      | destroyed | gone =>
          rw [hloop] at hcore
          cases hcore
    exact disconnect_of_resting hloop gs graceful
  · intro hconnected opening
    unfold connect
    rw [if_pos hconnected]

/-- The server closes one connection. On the next one DISCONNECT cannot be written. -/
def endingRun : List Action :=
  [.expect [.ok (.connAck false .accepted)], .connect none, .turn,
    .arrive [.error .connectionClosed], .turn, .expect [.ok (.connAck false .accepted)],
    .connect none, .outcomes [some (.writeStalled .disconnect)], .disconnect true]

/-- The second connection ends in a report, and its cause is the write of DISCONNECT. -/
theorem connections_reported_endingRun :
    endingRun.all Action.isCalm = true ∧
    (∃ life n handler later, ((new default .empty default).run endingRun).2.drop 10
        = life ++ .closed :: .notified n handler :: later ∧
      Log.Steady life ∧ n.isReport = true) ∧
    ((new default .empty default).run endingRun.dropLast).1.Ends (.disconnect true)
      (.disconnected (some (.writeStalled .disconnect))) := by
  have hlog : ((new default .empty default).run endingRun).2
      = ((new default .empty default).run endingRun).2.take 9
        ++ .established none :: ((new default .empty default).run endingRun).2.drop 10 := by
    decide
  have hrunning : ((new default .empty default).run endingRun).1.loop.isRunning = false := by
    decide
  have htold : .notified (.disconnected (some (.writeStalled .disconnect))) none
      ∈ (((new default .empty default).run endingRun.dropLast).1.step (.disconnect true)).2.1 := by
    decide
  obtain ⟨-, hended, -⟩ :=
    connections_reported default .empty default endingRun (by decide)
  obtain ⟨-, -, -, hcause, -⟩ :=
    connections_reported default .empty default endingRun.dropLast (by decide)
  refine ⟨by decide, ?_, (hcause _ _ rfl).mp ⟨none, htold⟩⟩
  rcases hended _ _ _ hlog with ⟨-, hup⟩ | hreported
  · cases hrunning.symm.trans hup
  · exact hreported

end Client

end Mqtt
