import Mathlib.Data.List.Induction
import Mqtt.Proofs.Client.Conservation
import Mqtt.Proofs.Client.Turn

/-!
# `Mqtt.Proofs.Client.Span`: from the server's consent to the report of the end

Seen from its log a client is down or up (`Span`). It comes up when the server
accepts a connection. The connection ends when the transport is closed, and the
application is told at once, before anything else happens.

* `Client.Ends`: the causes that end a connection, and what is told in each case.
* `Client.turnover`: an action makes a connection, ends one for one of these
  causes, destroys the loop, or does none of this.
* `Client.present_run`: after every run the log says whether a client takes itself
  for connected, and whether its loop runs.
-/

set_option autoImplicit false

namespace Mqtt

/-- Whether an event leaves connections as they are: none is made, none ends, and the
application is not told of an end. -/
def Event.isSteady : Event → Bool
  | .established _ | .closed => false
  | .notified n _ => !n.isReport
  | _ => true

/-- Whether an event calls a handler that destroys the loop before its end. -/
def Event.isBreak : Event → Bool
  | .notified n (some h) => h.fails && !n.isReport
  | _ => false

/-- Whether a loop is there that takes turns. -/
def Loop.isRunning : Loop → Bool
  | .running .. => true
  | _ => false

/-- Changing the core leaves the loop as it is. -/
theorem Loop.isRunning_mapCore (f : Core → Core) (loop : Loop) :
    (loop.mapCore f).isRunning = loop.isRunning := by
  cases loop <;> rfl

namespace Log

/-- Nothing is made and nothing ends. -/
def Steady (log : List Event) : Prop :=
  ∀ e ∈ log, e.isSteady = true

/-- A handler destroyed the loop before its end. -/
def Broken (log : List Event) : Prop :=
  ∃ e ∈ log, e.isBreak = true

/-- Where nothing happens, all is steady. -/
theorem steady_nil : Steady [] :=
  List.forall_mem_nil _

/-- And no handler is called. -/
theorem not_broken_nil : ¬ Broken [] := by
  rintro ⟨e, he, -⟩
  cases he

/-- A loop that is destroyed is so in the first of two logs or in the second. -/
theorem broken_append_iff {log later : List Event} :
    Broken (log ++ later) ↔ Broken log ∨ Broken later := by
  simp only [Broken, List.mem_append, or_and_right, exists_or]

/-- No handler is called. -/
theorem not_broken {log : List Event} (h : ∀ n handler, .notified n handler ∉ log) :
    ¬ Broken log := by
  rintro ⟨e, he, hbreak⟩
  cases e with
  | notified n handler => exact h n handler he
  | _ => cases hbreak

/-- The loop ends with the handler that is told of the end. -/
theorem not_broken_end {n : Notice} (hn : n.isReport = true) (handler : Option Handler) :
    ¬ Broken [.closed, .notified n handler] := by
  cases handler <;> simp [Broken, Event.isBreak, hn]

/-- Work on the queue is steady. -/
theorem steady_of_work {log : List Event} (h : ∀ e ∈ log, e.isWork = true) : Steady log := by
  intro e he
  have hwork := h e he
  cases e <;> first | rfl | cases hwork

/-- It calls no handler. -/
theorem not_broken_of_work {log : List Event} (h : ∀ e ∈ log, e.isWork = true) :
    ¬ Broken log := by
  refine not_broken fun n handler hmem => ?_
  cases h _ hmem

/-- Work can be added. -/
theorem append_work {log later : List Event} (h : Steady log ∧ ¬ Broken log)
    (hwork : ∀ e ∈ later, e.isWork = true) : Steady (log ++ later) ∧ ¬ Broken (log ++ later) := by
  rw [broken_append_iff]
  exact ⟨List.forall_mem_append.mpr ⟨h.1, steady_of_work hwork⟩,
    not_or.mpr ⟨h.2, not_broken_of_work hwork⟩⟩

end Log

/-! ### Spans -/

/-- Where a client is, as far as its log tells. -/
inductive Span where
  /-- There is no connection. -/
  | down
  | up
  /-- The transport was closed, and the application has to be told. -/
  | closing
  deriving DecidableEq

namespace Span

/-- Where a client is after an event, if the event may come. -/
def next? : Span → Event → Option Span
  | .down, .established _ => some .up
  | .down, .notified n _ => if n.isReport then none else some .down
  | .down, _ => some .down
  | .up, .established _ => none
  | .up, .closed => some .closing
  | .up, .notified n _ => if n.isReport then none else some .up
  | .up, _ => some .up
  | .closing, .notified n _ => if n.isReport then some .down else none
  | .closing, _ => none

/-- Where a client is after a log, if its events may come one after the other. -/
def run? (span : Span) (log : List Event) : Option Span :=
  log.foldlM next? span

/-- Logs in a row take a client from place to place. -/
theorem run?_append (span : Span) (log later : List Event) :
    span.run? (log ++ later) = (span.run? log).bind (·.run? later) :=
  List.foldlM_append

/-- The first event has to be allowed where the client is. -/
theorem run?_cons (span : Span) (e : Event) (log : List Event) :
    span.run? (e :: log) = (span.next? e).bind (·.run? log) :=
  rfl

/-- Steady events may come while a client is down, or up. -/
theorem next?_of_steady {span : Span} {e : Event} (hspan : span ≠ .closing)
    (h : e.isSteady = true) : span.next? e = some span := by
  cases e with
  | established | closed => cases h
  | notified n handler =>
      have hn : ¬ n.isReport = true := by simpa [Event.isSteady] using h
      cases span with
      | down | up => exact if_neg hn
      | closing => exact absurd rfl hspan
  | _ =>
      cases span with
      | down | up => rfl
      | closing => exact absurd rfl hspan

/-- A steady log leaves the client where it is. -/
theorem run?_of_steady {span : Span} {log : List Event} (hspan : span ≠ .closing)
    (h : Log.Steady log) : span.run? log = some span := by
  induction log with
  | nil => rfl
  | cons e log ih =>
      obtain ⟨he, hlog⟩ := List.forall_mem_cons.mp h
      rw [run?_cons, next?_of_steady hspan he]
      exact ih hlog

/-- A client that is down may close its transport. -/
theorem run?_down {log : List Event} (h : ∀ e ∈ log, e = .closed ∨ e.isSteady = true) :
    Span.down.run? log = some .down := by
  induction log with
  | nil => rfl
  | cons e log ih =>
      obtain ⟨he, hlog⟩ := List.forall_mem_cons.mp h
      rw [run?_cons]
      rcases he with rfl | he
      · exact ih hlog
      · rw [next?_of_steady (by simp) he]
        exact ih hlog

/-- The end of a connection. -/
theorem run?_end {life : List Event} (hlife : Log.Steady life) {n : Notice}
    (hn : n.isReport = true) (handler : Option Handler) :
    Span.up.run? (life ++ [.closed, .notified n handler]) = some .down := by
  rw [run?_append, run?_of_steady (by simp) hlife]
  show (Span.closing.next? (.notified n handler)).bind (·.run? []) = _
  rw [show Span.closing.next? (.notified n handler) = some .down from if_pos hn]
  rfl

/-- After every event of a log a client is somewhere. -/
theorem run?_split {span last : Span} {before after : List Event} {e : Event}
    (h : span.run? (before ++ e :: after) = some last) :
    ∃ s s', span.run? before = some s ∧ s.next? e = some s' ∧ s'.run? after = some last := by
  rw [run?_append] at h
  obtain ⟨s, hbefore, hrest⟩ := Option.bind_eq_some_iff.mp h
  rw [run?_cons] at hrest
  obtain ⟨s', hnext, hafter⟩ := Option.bind_eq_some_iff.mp hrest
  exact ⟨s, s', hbefore, hnext, hafter⟩

/-- The events that can come while a client is up. -/
theorem next?_up {e : Event} {span : Span} (h : Span.up.next? e = some span) :
    (e = .closed ∧ span = .closing) ∨ (e.isSteady = true ∧ span = .up) := by
  cases e with
  | closed => exact Or.inl ⟨rfl, (Option.some.inj h).symm⟩
  | notified n handler =>
      simp only [next?, Option.ite_none_left_eq_some, Option.some.injEq, Bool.not_eq_true] at h
      exact Or.inr ⟨congrArg Bool.not h.1, h.2.symm⟩
  | established => cases h
  | _ => exact Or.inr ⟨rfl, (Option.some.inj h).symm⟩

/-- A connection is made by a client that is down. -/
theorem next?_established {span span' : Span} {forgotten : Option Session}
    (h : span.next? (.established forgotten) = some span') : span = .down ∧ span' = .up := by
  cases span with
  | down => exact ⟨rfl, (Option.some.inj h).symm⟩
  | up | closing => cases h

/-- A client that is down stays down until a connection is made. -/
theorem next?_down {e : Event} {span : Span} (h : Span.down.next? e = some span) :
    (∃ forgotten, e = .established forgotten ∧ span = .up) ∨ span = .down := by
  cases e with
  | established forgotten => exact Or.inl ⟨forgotten, rfl, (Option.some.inj h).symm⟩
  | notified n handler =>
      simp only [next?, Option.ite_none_left_eq_some, Option.some.injEq] at h
      exact Or.inr h.2.symm
  | _ => exact Or.inr (Option.some.inj h).symm

/-- The application is told of the end before anything else happens. -/
theorem next?_closing {e : Event} {span : Span} (h : Span.closing.next? e = some span) :
    ∃ n handler, e = .notified n handler ∧ n.isReport = true ∧ span = .down := by
  cases e with
  | notified n handler =>
      simp only [next?, Option.ite_none_right_eq_some, Option.some.injEq] at h
      exact ⟨n, handler, rfl, h.1, h.2.symm⟩
  | _ => cases h

/-- A client that is up stays up, or is closing, or its connection ends. -/
theorem run?_up {log : List Event} {last : Span} (h : Span.up.run? log = some last) :
    (Log.Steady log ∧ last = .up) ∨
    ∃ life rest, Log.Steady life ∧ log = life ++ .closed :: rest ∧
      Span.closing.run? rest = some last := by
  induction log with
  | nil => exact Or.inl ⟨Log.steady_nil, (Option.some.inj h).symm⟩
  | cons e log ih =>
      rw [run?_cons] at h
      obtain ⟨span, hnext, hrest⟩ := Option.bind_eq_some_iff.mp h
      rcases next?_up hnext with ⟨rfl, rfl⟩ | ⟨hsteady, rfl⟩
      · exact Or.inr ⟨[], log, Log.steady_nil, rfl, hrest⟩
      · rcases ih hrest with ⟨hlog, rfl⟩ | ⟨life, rest, hlife, rfl, hclosing⟩
        · exact Or.inl ⟨List.forall_mem_cons.mpr ⟨hsteady, hlog⟩, rfl⟩
        · exact Or.inr ⟨e :: life, rest, List.forall_mem_cons.mpr ⟨hsteady, hlife⟩, rfl, hclosing⟩

/-- After a connection was made it is still there, or was closed and the application was
told. -/
theorem reported_of_established {before after : List Event} {forgotten : Option Session}
    {last : Span} (hlast : last ≠ .closing)
    (h : Span.down.run? (before ++ .established forgotten :: after) = some last) :
    (Log.Steady after ∧ last = .up) ∨
    ∃ life n handler later, after = life ++ .closed :: .notified n handler :: later ∧
      Log.Steady life ∧ n.isReport = true := by
  obtain ⟨s, s', -, hnext, hafter⟩ := run?_split h
  obtain ⟨-, rfl⟩ := next?_established hnext
  rcases run?_up hafter with hup | ⟨life, rest, hlife, rfl, hclosing⟩
  · exact Or.inl hup
  · cases rest with
    | nil => exact absurd (Option.some.inj hclosing).symm hlast
    | cons e later =>
        rw [run?_cons] at hclosing
        obtain ⟨span, hnext, -⟩ := Option.bind_eq_some_iff.mp hclosing
        obtain ⟨n, handler, rfl, hn, -⟩ := next?_closing hnext
        exact Or.inr ⟨life, n, handler, later, rfl, hlife, hn⟩

/-- A client is up since a connection was made. -/
theorem exists_established {log : List Event} (h : Span.down.run? log = some .up) :
    ∃ before forgotten life, log = before ++ .established forgotten :: life ∧
      Log.Steady life := by
  -- From the end of the log: the last event makes the connection, or leaves it as it is.
  induction log using List.reverseRecOn with
  | nil => cases h
  | append_singleton log e ih =>
      obtain ⟨span, span', hlog, hnext, hlast⟩ := run?_split h
      obtain rfl : span' = .up := Option.some.inj hlast
      cases span with
      | down =>
          rcases next?_down hnext with ⟨forgotten, rfl, -⟩ | hspan
          · exact ⟨log, forgotten, [], rfl, Log.steady_nil⟩
          · cases hspan
      | up =>
          rcases next?_up hnext with ⟨-, hspan⟩ | ⟨hsteady, -⟩
          · cases hspan
          · obtain ⟨before, forgotten, life, rfl, hlife⟩ := ih hlog
            refine ⟨before, forgotten, life ++ [e], by simp, ?_⟩
            exact List.forall_mem_append.mpr ⟨hlife, List.forall_mem_singleton.mpr hsteady⟩
      | closing =>
          obtain ⟨n, handler, -, -, hspan⟩ := next?_closing hnext
          cases hspan

/-- A client is closing when its transport was closed while it was up. -/
theorem exists_closed {log : List Event} (h : Span.down.run? log = some .closing) :
    ∃ before, log = before ++ [.closed] ∧ Span.down.run? before = some .up := by
  -- No hypothesis of the induction is needed, since `closing` lasts for one event.
  induction log using List.reverseRecOn with
  | nil => cases h
  | append_singleton log e =>
      obtain ⟨span, span', hlog, hnext, hlast⟩ := run?_split h
      obtain rfl : span' = .closing := Option.some.inj hlast
      cases span with
      | down =>
          rcases next?_down hnext with ⟨forgotten, -, hspan⟩ | hspan <;> cases hspan
      | up =>
          rcases next?_up hnext with ⟨rfl, -⟩ | ⟨-, hspan⟩
          · exact ⟨log, rfl, hlog⟩
          · cases hspan
      | closing =>
          obtain ⟨n, handler, -, -, hspan⟩ := next?_closing hnext
          cases hspan

/-- The application is told of the end of a connection that was made, once it was closed. -/
theorem established_of_reported {before after : List Event} {n : Notice}
    {handler : Option Handler} {last : Span} (hn : n.isReport = true)
    (h : Span.down.run? (before ++ .notified n handler :: after) = some last) :
    ∃ earlier forgotten life, before = earlier ++ .established forgotten :: life ++ [.closed] ∧
      Log.Steady life := by
  obtain ⟨s, s', hbefore, hnext, -⟩ := run?_split h
  cases s with
  | down | up => simp [next?, hn] at hnext
  | closing =>
      obtain ⟨front, rfl, hfront⟩ := exists_closed hbefore
      obtain ⟨earlier, forgotten, life, rfl, hlife⟩ := exists_established hfront
      exact ⟨earlier, forgotten, life, rfl, hlife⟩

end Span

namespace Core

/-- The application is told nothing while a connection is being made. -/
theorem notified_not_mem_greeting (core : Core) (n : Notice) (handler : Option Handler) :
    .notified n handler ∉ core.greeting := by
  unfold greeting opened
  split <;> simp

/-- Looking at the keep-alive is work. -/
theorem work_tick (core : Core) (now : Nat) : ∀ e ∈ (core.tick now).2.1, e.isWork = true := by
  have h := core.ticked now
  generalize core.tick now = result at h ⊢
  cases h <;> simp [Event.isWork]

end Core

/-- A PINGREQ that is due and one that was left unanswered exclude each other. -/
theorem KeepAlive.poll_eq_giveUp_iff {k : KeepAlive} {now : Int} :
    k.poll now = .giveUp ↔ k.isExpired now = true := by
  have hexclude : k.isExpired now = true → k.isDue now = false := by
    unfold isExpired isDue
    cases k.pingedAt with
    | none => cases k.timeout <;> simp
    | some sent => cases k.timeout <;> simp
  unfold poll
  by_cases hexpired : k.isExpired now = true
  · simp [hexpired, hexclude hexpired]
  · simp only [hexpired]
    split <;> simp

namespace Client

/-! ### What an action does to a connection -/

/-- The causes that end a connection, by the action in which it ends, and what the
application is told. -/
inductive Ends (c : Client) : Action → Notice → Prop where
  /-- A write fails for good in a turn. A loop at the top takes its turn before it sees
  that it is to shut down. -/
  | unwritten {a : Action} {reason : ClientError}
      (hturn : a = .turn ∨ ∃ graceful core, a = .disconnect graceful ∧
        c.loop = .running .top core)
      (hfault : reason ∈ Log.faults c.turn.2) : Ends c a (.connectionLost reason)
  /-- A read fails for good. -/
  | unread {core : Core} {reason : ClientError} {incoming : List Arrival}
      (hloop : c.loop = .running .parked core) (hinbox : core.inbox = [])
      (hincoming : core.link.incoming = .error reason :: incoming)
      (htimeout : reason.isTimeout = false) : Ends c .turn (.connectionLost reason)
  /-- A PINGREQ was left unanswered for too long. -/
  | expired {core : Core} {taken : List Event} (htaken : c.taken? = some (core, taken))
      (hexpired : core.keepAlive.isExpired c.now = true) :
      Ends c .turn (.connectionLost .pingExpired)
  /-- The application does not ask for a graceful end. -/
  | dropped {core : Core} (hsignal : c.signalled? = some core) :
      Ends c (.disconnect false) (.disconnected none)
  /-- A packet of the queue cannot be written before DISCONNECT. -/
  | unflushed {core : Core} {reason : ClientError} (hsignal : c.signalled? = some core)
      (hfault : reason ∈ Log.faults core.serve.2.1) :
      Ends c (.disconnect true) (.disconnected (some reason))
  /-- DISCONNECT is handed to the transport. -/
  | parted {core : Core} (hsignal : c.signalled? = some core)
      (hserved : Log.faults core.serve.2.1 = []) :
      Ends c (.disconnect true) (.disconnected (core.serve.1.write .disconnect).1)

/-- What an action does to the connection of a client. -/
inductive Turnover (c : Client) (a : Action) : List Event → Client → Prop where
  /-- Nothing. -/
  | stays {events : List Event} {c' : Client} (hsteady : Log.Steady events)
      (hbroken : ¬ Log.Broken events) (hconnected : c'.connected = c.connected)
      (hrunning : c'.loop.isRunning = c.loop.isRunning) : Turnover c a events c'
  /-- A connection is not made. -/
  | refused {events : List Event} {c' : Client}
      (hsteady : ∀ e ∈ events, e = .closed ∨ e.isSteady = true)
      (hbroken : ¬ Log.Broken events) (hdown : c.connected = false)
      (hconnected : c'.connected = false) (hrunning : c'.loop.isRunning = false) :
      Turnover c a events c'
  /-- A connection is made. -/
  | made {events : List Event} {c' : Client} (forgotten : Option Session)
      (hmakes : c.establishes a = true)
      (hsteady : ∀ e ∈ events, e = .closed ∨ e.isSteady = true)
      (hbroken : ¬ Log.Broken events) (hdown : c.connected = false)
      (hconnected : c'.connected = true) (hrunning : c'.loop.isRunning = true) :
      Turnover c a (events ++ [.established forgotten]) c'
  /-- A connection ends. -/
  | ended {life : List Event} {c' : Client} {n : Notice} (hup : c.loop.isRunning = true)
      (hlife : Log.Steady life) (hbroken : ¬ Log.Broken life) (hends : c.Ends a n)
      (hreport : n.isReport = true) (hconnected : c'.connected = false)
      (hrunning : c'.loop.isRunning = false)
      (hclosed : ∀ core, c'.loop.core? = some core → core.link.isOpen = false) :
      Turnover c a (life ++ [.closed, c.notification n]) c'
  /-- A handler destroys the loop. -/
  | broken {events : List Event} {c' : Client} (hup : c.loop.isRunning = true)
      (hsteady : Log.Steady events) (hbroken : Log.Broken events)
      (hconnected : c'.connected = c.connected) (hrunning : c'.loop.isRunning = false) :
      Turnover c a events c'

variable {c : Client} {a : Action}

/-- A loop that ended does not run, and its transport is closed. -/
theorem ended_finish (c : Client) (core : Core) (ending : Ending) :
    (c.finish core ending).1.loop.isRunning = false ∧
      ∀ last, (c.finish core ending).1.loop.core? = some last → last.link.isOpen = false := by
  unfold finish
  dsimp only
  split
  · refine ⟨rfl, fun last hlast => ?_⟩
    obtain rfl := Option.some.inj hlast
    rfl
  · refine ⟨rfl, fun last hlast => ?_⟩
    cases hlast

/-- Taking the core back does not start a loop. -/
theorem isRunning_collect (h : c.loop.isRunning = false) : c.collect.1.loop.isRunning = false := by
  unfold collect
  split
  · rfl
  · rfl
  · exact h

/-- The end of a loop ends a connection, also when the core is taken back. -/
theorem turnover_finish {life : List Event} {core : Core} {ending : Ending}
    (hup : c.loop.isRunning = true) (hlife : Log.Steady life ∧ ¬ Log.Broken life)
    (hends : c.Ends a (conclude core ending).2.2) :
    c.Turnover a (life ++ (c.finish core ending).2) (c.finish core ending).1 ∧
      c.Turnover a (life ++ (c.finish core ending).2) (c.finish core ending).1.collect.1 := by
  obtain ⟨hsteady, hbroken⟩ := Log.append_work hlife
    fun e he => (work_conclude core ending e he).1
  obtain ⟨hrunning, hclosed⟩ := c.ended_finish core ending
  have hreport := isReport_conclude core ending
  have hevents : life ++ (c.finish core ending).2
      = (life ++ (conclude core ending).2.1)
        ++ [.closed, c.notification (conclude core ending).2.2] :=
    (List.append_assoc ..).symm
  rw [hevents]
  constructor
  · exact .ended hup hsteady hbroken hends hreport rfl hrunning hclosed
  · refine .ended hup hsteady hbroken hends hreport ?_ (isRunning_collect hrunning) ?_
    · rw [collect_finish]
    · rw [core?_collect]
      exact hclosed

/-- What happens when a packet is read. -/
theorem mem_routing {core : Core} {p : Packet} {e : Event} (he : e ∈ c.routing core p) :
    e = .received p ∨ (∃ q reason, e = .untracked q reason) ∨
      ∃ n, (c.routed core p).notice = some n ∧ e = c.notification n := by
  rcases List.mem_append.mp he with he | he
  · rcases List.mem_cons.mp he with he | he
    · exact Or.inl he
    · exact Or.inr (Or.inl (Core.exists_untracked_of_route he))
  · obtain ⟨n, hn, rfl⟩ := List.mem_map.mp he
    exact Or.inr (Or.inr ⟨n, Option.mem_toList.mp hn, rfl⟩)

/-- It leaves the connection as it is. -/
theorem steady_routing (core : Core) (p : Packet) : Log.Steady (c.routing core p) := by
  intro e he
  rcases mem_routing he with rfl | ⟨q, reason, rfl⟩ | ⟨n, hn, rfl⟩
  · rfl
  · rfl
  · have hreport : n.isReport = false := Core.isReport_route hn
    show (!n.isReport) = true
    rw [hreport]
    rfl

/-- A handler destroys the loop, or none does. -/
theorem broken_routing_iff (core : Core) (p : Packet) :
    Log.Broken (c.routing core p) ↔
      ∃ n, (c.routed core p).notice = some n ∧ c.handlers.survive n = false := by
  have hbreak : ∀ n, (c.notification n).isBreak = true ↔
      c.handlers.survive n = false ∧ n.isReport = false := by
    intro n
    unfold notification Handlers.survive
    cases c.handlers n.kind with
    | none => simp [Event.isBreak]
    | some h => simp [Event.isBreak]
  constructor
  · rintro ⟨e, he, hfail⟩
    rcases mem_routing he with rfl | ⟨q, reason, rfl⟩ | ⟨n, hn, rfl⟩
    · cases hfail
    · cases hfail
    · exact ⟨n, hn, ((hbreak n).mp hfail).1⟩
  · rintro ⟨n, hn, hfail⟩
    refine ⟨c.notification n, List.mem_append_right _ ?_,
      (hbreak n).mpr ⟨hfail, Core.isReport_route hn⟩⟩
    exact List.mem_map_of_mem (Option.mem_toList.mpr hn)

/-- What a loop takes in leaves the connection as it is. -/
theorem steady_taken {core : Core} {taken : List Event} (h : c.taken? = some (core, taken)) :
    Log.Steady taken ∧ ¬ Log.Broken taken := by
  obtain ⟨core₀, -, htaken⟩ := taken_of_taken? h
  cases htaken with
  | @request r inbox hinbox =>
      have hwork := (Core.worked_accept { core₀ with inbox } r).work
      exact ⟨Log.steady_of_work hwork, Log.not_broken_of_work hwork⟩
  | packet hinbox hincoming hsurvive =>
      refine ⟨steady_routing _ _, ?_⟩
      rw [broken_routing_iff]
      rintro ⟨n, hn, hfail⟩
      rw [hsurvive n hn] at hfail
      cases hfail
  | pause => exact ⟨Log.steady_nil, Log.not_broken_nil⟩

/-- The keep-alive ends a connection when a PINGREQ is left unanswered, or cannot be
written. -/
theorem ends_of_tick {core : Core} {taken : List Event} {reason : ClientError}
    (htaken : c.taken? = some (core, taken)) (hticked : (core.tick c.now).2.2 = some reason) :
    c.Ends .turn (.connectionLost reason) := by
  -- A cause is stated on the events of the whole turn, and those of the tick are its last part,
  -- or are followed by the end of the loop.
  have hfault : ∀ {failure}, .wrote .pingReq (some failure) ∈ (core.tick c.now).2.1 →
      failure.isTimeout = false → failure ∈ Log.faults c.turn.2 := by
    intro failure hwrote htimeout
    refine Log.mem_faults_iff.mpr ⟨.pingReq, ?_, htimeout⟩
    rw [turn_of_taken htaken]
    refine List.mem_append_right _ ?_
    rcases endTurn_cases c core with ⟨-, hend⟩ | ⟨reason', -, hend⟩ <;> rw [hend]
    · exact hwrote
    · exact List.mem_append_left _ hwrote
  have h := core.ticked c.now
  generalize core.tick c.now = result at h hticked hfault
  cases h with
  | quiet | pinged | missed => cases hticked
  | expired hpoll =>
      obtain rfl := Option.some.inj hticked
      exact .expired htaken (KeepAlive.poll_eq_giveUp_iff.mp hpoll)
  | failed link hpoll htimeout =>
      obtain rfl := Option.some.inj hticked
      exact .unwritten (Or.inl rfl) (hfault List.mem_cons_self htimeout)

/-- What a turn does. -/
theorem turnover_turn {events : List Event} {c' : Client} (h : c.Turned events c') :
    c.Turnover .turn events c' := by
  cases h with
  | still => exact .stays Log.steady_nil Log.not_broken_nil rfl rfl
  | @served core hloop hserved =>
      have hwork := (Core.worked_serve core).work
      refine .stays (Log.steady_of_work hwork) (Log.not_broken_of_work hwork) rfl ?_
      rw [hloop]
      rfl
  | @unwritten core reason hloop hfailed =>
      have hserve := Core.worked_serve core
      refine (turnover_finish (by rw [hloop]; rfl)
        ⟨Log.steady_of_work hserve.work, Log.not_broken_of_work hserve.work⟩
        (.unwritten (Or.inl rfl) ?_)).1
      rw [turn_of_unwritten hloop hfailed, Log.faults_append, hserve.faults, hfailed]
      exact List.mem_append_left _ List.mem_cons_self
  | @looked core taken htaken hticked =>
      obtain ⟨hsteady, hbroken⟩ := Log.append_work (steady_taken htaken) (core.work_tick c.now)
      obtain ⟨core₀, hloop, -⟩ := taken_of_taken? htaken
      refine .stays hsteady hbroken rfl ?_
      rw [hloop]
      rfl
  | @gaveUp core taken reason htaken hticked =>
      have hlife := Log.append_work (steady_taken htaken) (core.work_tick c.now)
      obtain ⟨core₀, hloop, -⟩ := taken_of_taken? htaken
      -- What was taken in and the tick are one life; only the end of the loop stands behind it.
      rw [← List.append_assoc]
      exact (turnover_finish (by rw [hloop]; rfl) hlife (ends_of_tick htaken hticked)).1
  | @unread core reason incoming hloop hinbox hincoming htimeout =>
      have hends : c.Ends .turn
          (conclude { core with link := { core.link with incoming } } (.lost reason)).2.2 :=
        .unread hloop hinbox hincoming htimeout
      exact (turnover_finish (by rw [hloop]; rfl) ⟨Log.steady_nil, Log.not_broken_nil⟩ hends).1
  | @broken core p incoming n hloop hinbox hincoming hnotice hsurvive =>
      exact .broken (by rw [hloop]; rfl) (steady_routing _ _)
        ((broken_routing_iff _ _).mpr ⟨n, hnotice, hsurvive⟩) rfl rfl

/-- A loop that sees the signal runs, and has at most worked on its queue. -/
theorem unsignalled_of_signalled? {core : Core} (h : c.signalled? = some core) :
    c.loop.isRunning = true ∧ ∀ e ∈ c.unsignalled, e.isWork = true := by
  unfold signalled? at h
  unfold unsignalled
  split at h
  · next core₀ hloop =>
      rw [hloop]
      exact ⟨rfl, List.forall_mem_nil _⟩
  · next core₀ hloop =>
      rw [hloop]
      exact ⟨rfl, (Core.worked_serve core₀).work⟩
  · cases h

/-- What shutting down ends with. -/
theorem ends_of_signalled? {core : Core} (h : c.signalled? = some core) (graceful : Bool) :
    c.Ends (.disconnect graceful) (conclude core (.shutdown graceful)).2.2 := by
  have hserve := (Core.worked_serve core).faults
  cases graceful with
  | false => exact .dropped h
  | true =>
      show c.Ends (.disconnect true) (.disconnected core.part.2.2)
      rcases core.part_cases with ⟨failure, hfailed, hpart⟩ | ⟨hserved, hpart⟩ <;> rw [hpart]
      · refine .unflushed h ?_
        rw [hserve, hfailed]
        exact List.mem_singleton_self failure
      · refine .parted h ?_
        rw [hserve, hserved]
        rfl

/-- What disconnecting does. -/
theorem turnover_disconnect {graceful : Bool} {events : List Event} {c' : Client}
    {failure : Option ClientError} (h : c.Parted graceful events c' failure) :
    c.Turnover (.disconnect graceful) events c' := by
  cases h with
  | @resting core hloop =>
      refine .stays Log.steady_nil Log.not_broken_nil rfl ?_
      rcases hloop with hloop | hloop <;> simp [hloop, Loop.isRunning]
  | destroyed hloop =>
      refine .stays Log.steady_nil Log.not_broken_nil rfl ?_
      rw [hloop]
      rfl
  | gone hloop => exact .stays Log.steady_nil Log.not_broken_nil rfl rfl
  | @unwritten core reason hloop hfailed =>
      have hserve := Core.worked_serve core
      refine (turnover_finish (by rw [hloop]; rfl)
        ⟨Log.steady_of_work hserve.work, Log.not_broken_of_work hserve.work⟩
        (.unwritten (Or.inr ⟨graceful, core, rfl, hloop⟩) ?_)).2
      -- The pass fails before the loop sees the signal, so this is the end of a turn.
      rw [turn_of_unwritten hloop hfailed, Log.faults_append, hserve.faults, hfailed]
      exact List.mem_append_left _ List.mem_cons_self
  | stopped hsignal =>
      obtain ⟨hup, hwork⟩ := unsignalled_of_signalled? hsignal
      exact (turnover_finish hup ⟨Log.steady_of_work hwork, Log.not_broken_of_work hwork⟩
        (ends_of_signalled? hsignal graceful)).2

/-- What connecting does. -/
theorem turnover_connect (c : Client) (opening : Option ClientError) :
    c.Turnover (.connect opening) (c.connect opening).2.1 (c.connect opening).1 := by
  -- What leads to an attempt or to a connection is steady but for the transport.
  have hquiet : ∀ {log : List Event}, (∀ e ∈ log, e.isOwn = true) →
      (∀ n handler, .notified n handler ∉ log) → ∀ e ∈ log, e = .closed ∨ e.isSteady = true := by
    intro log hown hsilent e he
    cases e with
    | closed => exact Or.inl rfl
    | notified n handler => exact absurd he (hsilent n handler)
    | established => cases hown _ he
    | _ => exact Or.inr rfl
  have h := c.joined opening
  generalize hconnect : c.connect opening = result at h ⊢
  obtain ⟨c', events, failure⟩ := result
  cases h with
  | already => exact .stays Log.steady_nil Log.not_broken_nil rfl rfl
  | refused link hdown hloop hfailed =>
      exact .refused (hquiet hfailed.isOwn hfailed.notified_not_mem)
        (Log.not_broken hfailed.notified_not_mem) hdown hdown rfl
  | @made core link hdown hloop =>
      have hmakes : c.establishes (.connect opening) = true := by
        rw [establishes, hdown, hconnect]
        rfl
      obtain ⟨forgotten, hresume⟩ := Core.resume_events { core with link } c.now
      rw [hresume]
      exact .made forgotten hmakes (hquiet core.isOwn_greeting core.notified_not_mem_greeting)
        (Log.not_broken core.notified_not_mem_greeting) hdown rfl rfl
  | destroyed hdown hloop =>
      refine .stays Log.steady_nil Log.not_broken_nil rfl ?_
      rw [hloop]
      rfl
  | stuck => exact .stays Log.steady_nil Log.not_broken_nil rfl rfl

/-- Every action of a client makes a connection, ends one, destroys the loop, or does
none of this. -/
theorem turnover (c : Client) (a : Action) : c.Turnover a (c.step a).2.1 (c.step a).1 := by
  have h := c.stepped a
  generalize hevents : (c.step a).2.1 = events at h ⊢
  generalize hclient : (c.step a).1 = c' at h ⊢
  cases h with
  | turn h => exact turnover_turn h
  | disconnect h => exact turnover_disconnect h
  | @connect opening => exact hevents ▸ hclient ▸ c.turnover_connect opening
  | aside f hloop hconnected hcore hevents =>
      refine .stays ?_ (Log.not_broken ?_) hconnected ?_
      · intro e he
        obtain ⟨⟨r, rfl⟩, -⟩ := hevents e he
        rfl
      · intro n handler hmem
        obtain ⟨⟨r, hr⟩, -⟩ := hevents _ hmem
        cases hr
      · rw [hloop, Loop.isRunning_mapCore]

/-! ### What the log says of a client -/

/-- The log of a client says whether it takes itself for connected, and whether its
loop runs. -/
structure Present (c : Client) (log : List Event) : Prop where
  span : Span.down.run? log = some (if c.connected then .up else .down)
  broken : Log.Broken log ↔ c.connected = true ∧ c.loop.isRunning = false
  running : c.loop.isRunning = true → c.connected = true

/-- It does after every action. -/
theorem Present.turnover {log events : List Event} {c' : Client} (h : c.Present log)
    (hturnover : c.Turnover a events c') : c'.Present (log ++ events) := by
  cases hturnover with
  | stays hsteady hbroken hconnected hrunning =>
      refine ⟨?_, ?_, ?_⟩
      · rw [Span.run?_append, h.span, Option.bind_some, hconnected]
        exact Span.run?_of_steady (by split <;> simp) hsteady
      · rw [Log.broken_append_iff, hconnected, hrunning, ← h.broken]
        exact or_iff_left hbroken
      · rw [hconnected, hrunning]
        exact h.running
  | refused hsteady hbroken hdown hconnected hrunning =>
      -- A client that does not take itself for connected had no loop destroyed.
      have hlog : ¬ Log.Broken log := by simp [h.broken, hdown]
      refine ⟨?_, ?_, ?_⟩
      · rw [Span.run?_append, h.span, Option.bind_some, hdown, hconnected]
        exact Span.run?_down hsteady
      · simp [Log.broken_append_iff, hlog, hbroken, hconnected]
      · simp [hrunning]
  | made forgotten hmakes hsteady hbroken hdown hconnected hrunning =>
      have hlog : ¬ Log.Broken log := by simp [h.broken, hdown]
      have hmade : ¬ Log.Broken [.established forgotten] := Log.not_broken (by simp)
      refine ⟨?_, ?_, fun _ => hconnected⟩
      · rw [Span.run?_append, h.span, Option.bind_some, hdown, Span.run?_append]
        simp only [Bool.false_eq_true, if_false, Span.run?_down hsteady, hconnected, if_true]
        rfl
      · simp [Log.broken_append_iff, hlog, hbroken, hmade, hrunning]
  | @ended life c' n hup hlife hbroken hends hreport hconnected hrunning =>
      have hlog : ¬ Log.Broken log := by simp [h.broken, hup]
      have hend := Log.not_broken_end hreport (c.handlers n.kind)
      refine ⟨?_, ?_, ?_⟩
      · rw [Span.run?_append, h.span, Option.bind_some, h.running hup, hconnected]
        exact Span.run?_end hlife hreport _
      · simp [Log.broken_append_iff, hlog, hbroken, notification, hend, hconnected]
      · simp [hrunning]
  | broken hup hsteady hbroken hconnected hrunning =>
      -- The flag stays as it was while the loop ran.
      have hconn : c.connected = true := h.running hup
      refine ⟨?_, ?_, ?_⟩
      · rw [Span.run?_append, h.span, Option.bind_some, hconnected, hconn]
        exact Span.run?_of_steady (by simp) hsteady
      · simp [Log.broken_append_iff, hbroken, hconnected, hconn, hrunning]
      · simp [hrunning]

/-- A new client is down, not connected, and has no loop. -/
theorem present_new (settings : Settings) (session : Session) (link : Link) :
    (new settings session link).Present [] :=
  ⟨rfl, by simp [Log.Broken, new], by simp [new, Loop.isRunning]⟩

/-- It does after every run. -/
theorem present_run {log : List Event} (h : c.Present log) (as : List Action) :
    (c.run as).1.Present (log ++ (c.run as).2) := by
  induction as generalizing c log with
  | nil =>
      rw [show (c.run []).2 = [] from rfl, List.append_nil]
      exact h
  | cons a as ih =>
      have hrest := ih (h.turnover (c.turnover a))
      rw [List.append_assoc] at hrest
      exact hrest

end Client

end Mqtt
