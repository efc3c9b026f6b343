import Mqtt.Proofs.Client.Attempt
import Mqtt.Proofs.Client.Span

/-!
# `Mqtt.Proofs.Client.Presence`: when a client takes itself for connected

A client takes itself for connected from the moment when the server accepts a
connection until the transport is closed (`Log.IsOpen`). As long as no handler
destroys the loop on the way (`Log.Broken`), the loop runs exactly then.

* `Client.connected_until_broken`: what the flag, connecting and disconnecting say
  of the loop, after every run.
* `Client.connected_without_loop`: a client whose loop was destroyed takes itself
  for connected for good.
-/

set_option autoImplicit false

namespace Mqtt

/-- Whether a connection was made, and its transport was not closed since. -/
def Log.IsOpen (log : List Event) : Prop :=
  ∃ before forgotten life, log = before ++ .established forgotten :: life ∧ .closed ∉ life

/-- A connection is there while a client is up. -/
theorem Span.isOpen_iff {log : List Event} {span : Span} (hspan : span ≠ .closing)
    (h : Span.down.run? log = some span) : Log.IsOpen log ↔ span = .up := by
  constructor
  · rintro ⟨before, forgotten, life, rfl, hlife⟩
    obtain ⟨s, s', -, hnext, hafter⟩ := run?_split h
    obtain ⟨-, rfl⟩ := next?_established hnext
    rcases run?_up hafter with ⟨-, hup⟩ | ⟨front, rest, -, rfl, -⟩
    · exact hup
    · exact absurd (by simp) hlife
  · rintro rfl
    obtain ⟨before, forgotten, life, rfl, hlife⟩ := exists_established h
    refine ⟨before, forgotten, life, rfl, fun hclosed => ?_⟩
    cases hlife _ hclosed

namespace Client

variable {c : Client}

/-- A client that is present takes itself for connected while a connection is there. -/
theorem Present.isOpen_iff {log : List Event} (h : c.Present log) :
    c.connected = true ↔ Log.IsOpen log := by
  rw [Span.isOpen_iff (by split <;> simp) h.span]
  cases c.connected <;> simp

/-- A loop that was destroyed has no core. -/
theorem core?_eq_none_of_broken {log : List Event} (h : c.Present log) (hcoherent : c.Coherent)
    (hbroken : Log.Broken log) : c.loop.core? = none := by
  obtain ⟨hconnected, hrunning⟩ := h.broken.mp hbroken
  unfold Coherent at hcoherent
  cases hloop : c.loop with
  | idle | finished =>
      rw [hloop] at hcoherent
      cases hconnected.symm.trans hcoherent
  | running phase core =>
      rw [hloop] at hrunning
      cases hrunning
  | destroyed | gone => rfl

/-- Nothing happens to a client without a core. -/
theorem run_of_core?_eq_none (hloop : c.loop.core? = none) (as : List Action) :
    (c.run as).2 = [] := by
  induction as generalizing c with
  | nil => rfl
  | cons a as ih =>
      obtain ⟨hevents, hloop'⟩ := step_of_core?_eq_none c a hloop
      show (c.step a).2.1 ++ ((c.step a).1.run as).2 = []
      rw [hevents, ih hloop']
      rfl

/-- No loop runs after disconnecting. -/
theorem Parted.isRunning {graceful : Bool} {events : List Event} {c' : Client}
    {failure : Option ClientError} (h : c.Parted graceful events c' failure) :
    c'.loop.isRunning = false := by
  cases h with
  | resting | destroyed => rfl
  | gone hloop => rw [hloop]; rfl
  | unwritten | stopped =>
      rw [collect_finish]
      dsimp only
      split <;> rfl

/-- A client whose loop ran does not take itself for connected after that. Otherwise the
flag stays. -/
theorem Parted.connected {graceful : Bool} {events : List Event} {c' : Client}
    {failure : Option ClientError} (h : c.Parted graceful events c' failure) :
    c'.connected = (c.connected && !c.loop.isRunning) := by
  cases h with
  | resting hloop => rcases hloop with hloop | hloop <;> simp [hloop, Loop.isRunning]
  | destroyed hloop | gone hloop => simp [hloop, Loop.isRunning]
  | unwritten hloop =>
      rw [collect_finish, hloop]
      exact (Bool.and_false _).symm
  | stopped hsignal =>
      rw [collect_finish, (unsignalled_of_signalled? hsignal).1]
      exact (Bool.and_false _).symm

/-- Connecting succeeds when the client takes itself for connected, and does nothing
then, or when it starts a loop. -/
theorem connect_succeeds {opening : Option ClientError}
    (hok : (c.connect opening).2.2 = none) :
    (c.connected = true ∧ c.connect opening = (c, [], none)) ∨
    (c.connected = false ∧ (c.connect opening).1.connected = true ∧
      (c.connect opening).1.loop.isRunning = true ∧
      ∃ forgotten, .established forgotten ∈ (c.connect opening).2.1) := by
  have h := c.joined opening
  generalize hconnect : c.connect opening = result at h hok ⊢
  obtain ⟨c', events, failure⟩ := result
  obtain rfl : failure = none := hok
  cases h with
  | already hconnected => exact Or.inl ⟨hconnected, rfl⟩
  | @made core link hdown =>
      obtain ⟨forgotten, hresume⟩ := Core.resume_events { core with link } c.now
      refine Or.inr ⟨hdown, rfl, rfl, forgotten, ?_⟩
      rw [hresume]
      simp

/-- What a client tells of itself, after every run, whatever the handlers do.

* It takes itself for connected while a connection is there.
* The loop runs while it does, unless a handler destroyed the loop before the end of
  the connection. In that case it takes itself for connected without one.
* After a connect that succeeds it takes itself for connected, and the loop runs, with
  the same exception. Then connecting did nothing at all.
* After disconnecting no loop runs, and with the same exception it does not take itself
  for connected.
* In that case nothing ever happens to the client again. -/
theorem connected_until_broken (settings : Settings) (session : Session) (link : Link)
    (as : List Action) :
    let c := ((new settings session link).run as).1
    let log := ((new settings session link).run as).2
    (c.connected = true ↔ Log.IsOpen log) ∧
    (c.loop.isRunning = true ↔ c.connected = true ∧ ¬ Log.Broken log) ∧
    (Log.Broken log → c.connected = true) ∧
    (∀ opening, (c.connect opening).2.2 = none →
      (c.connect opening).1.connected = true ∧
      ((c.connect opening).1.loop.isRunning = true ↔ ¬ Log.Broken log) ∧
      (Log.Broken log → c.connect opening = (c, [], none))) ∧
    (∀ graceful, (c.disconnect graceful).1.loop.isRunning = false ∧
      ((c.disconnect graceful).1.connected = true ↔ Log.Broken log)) ∧
    (Log.Broken log → ∀ later, (c.run later).2 = []) := by
  intro c log
  have hpresent : c.Present log := present_run (present_new settings session link) as
  have hcoherent : c.Coherent := coherent_run (coherent_new settings session link) as
  -- `Present.broken` tells the broken state by the flag and the loop. Solved for the loop it
  -- serves the parts below.
  have hrunning : c.loop.isRunning = true ↔ c.connected = true ∧ ¬ Log.Broken log := by
    rw [hpresent.broken]
    cases hloop : c.loop.isRunning with
    | true => simp [hpresent.running hloop]
    | false => simp
  refine ⟨hpresent.isOpen_iff, hrunning, fun h => (hpresent.broken.mp h).1, ?_, ?_, ?_⟩
  · intro opening hok
    rcases connect_succeeds hok with ⟨hconnected, hsame⟩ | ⟨hdown, hconnected, hup, -⟩
    · rw [hsame]
      exact ⟨hconnected, by simp [hrunning, hconnected], fun _ => rfl⟩
    · have hwhole : ¬ Log.Broken log := by simp [hpresent.broken, hdown]
      exact ⟨hconnected, iff_of_true hup hwhole, fun hbroken => absurd hbroken hwhole⟩
  · intro graceful
    refine ⟨(c.parted graceful).isRunning, ?_⟩
    rw [(c.parted graceful).connected, Bool.and_eq_true, Bool.not_eq_true', hpresent.broken]
  · intro hbroken later
    exact run_of_core?_eq_none (core?_eq_none_of_broken hpresent hcoherent hbroken) later

/-- The handler for messages fails, and a message comes. -/
def failingRun : List Action :=
  [.on .messageReceived ⟨"", true⟩, .expect [.ok (.connAck false .accepted)], .connect none,
    .arrive [.ok (.publish ⟨"a", [1], .atMostOnce, false, false, 0⟩)], .turn, .turn]

/-- The client takes itself for connected, and nothing it is asked changes this. -/
theorem connected_without_loop :
    ((new default .empty default).run failingRun).1.connected = true ∧
    ((new default .empty default).run failingRun).1.loop.isRunning = false ∧
    (((new default .empty default).run failingRun).1.connect none).2 = ([], none) ∧
    (((new default .empty default).run failingRun).1.connect none).1.loop.isRunning = false ∧
    (((new default .empty default).run failingRun).1.disconnect true).2
      = ([], some .loopDestroyed) ∧
    (((new default .empty default).run failingRun).1.disconnect true).1.connected = true := by
  decide

end Client

end Mqtt
