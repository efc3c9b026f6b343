import Mqtt.Proofs.Client.Moves

/-!
# `Mqtt.Proofs.Client.Handshake`: what connecting does

Connecting opens the transport, writes CONNECT and reads the answer. There is
an equation for each way in which this ends (`Core.connect_unopened`,
`Core.connect_unwritten`, `Core.connect_answered`).

* `Core.connect_cases`: connecting fails, or makes the core ready.
* `Core.FailedAttempt`: the attempts that fail, by their causes, with their
  events. These are all (`Core.failedAttempt_of_connect`).
-/

set_option autoImplicit false

namespace Mqtt

namespace Core

/-! ### What connecting does -/

/-- What happens up to the opening of the transport: one that is open is
closed first. -/
def opened (core : Core) (opening : Option ClientError) : List Event :=
  (if core.link.isOpen then [.closed] else [])
    ++ [.opened core.settings.hostname core.settings.port opening]

/-- What happens up to the answer to CONNECT. -/
def greeting (core : Core) : List Event :=
  core.opened none
    ++ [.wrote core.settings.toConnect none, .awaitedAnswer (answerTimeout core.settings)]

/-- Writing CONNECT: the failure, and the network after it. -/
def offer (core : Core) : Option ClientError × Link :=
  core.link.write core.settings.toConnect

/-- Reading the answer: what comes, and the network after it. -/
def answer (core : Core) : Arrival × Link :=
  core.offer.2.read

/-- The attempts to connect that fail, with their events. The transport cannot
be opened, CONNECT cannot be written, or the answer does not accept it: none
comes in time or it cannot be read, it is no CONNACK, or it is a refusal. -/
inductive FailedAttempt (core : Core) : Option ClientError → List Event → ClientError → Prop where
  | unopened (failure : ClientError) :
      FailedAttempt core (some failure) (core.opened (some failure)) failure
  | unwritten {failure : ClientError} (hoffer : core.offer.1 = some failure) :
      FailedAttempt core none
        (core.opened none ++ [.wrote core.settings.toConnect (some failure), .closed]) failure
  | refused {failure : ClientError} (hoffer : core.offer.1 = none)
      (hanswer : refusal core.answer.1 = some failure) :
      FailedAttempt core none (core.greeting ++ [.closed]) failure

/-- Connecting starts from a transport that is closed. -/
theorem close_first (core : Core) (opening : Option ClientError) :
    ∃ closing, (if core.link.isOpen then (core.close, [Event.closed]) else (core, []))
        = ({ core with link := core.link.close }, closing) ∧
      core.opened opening
        = closing ++ [.opened core.settings.hostname core.settings.port opening] := by
  unfold opened
  by_cases hopen : core.link.isOpen = true
  · rw [if_pos hopen, if_pos hopen]
    exact ⟨_, rfl, rfl⟩
  · have hclosed : core.link.close = core.link := by
      rw [Link.close, ← Bool.eq_false_iff.mpr hopen]
    rw [if_neg hopen, if_neg hopen, hclosed]
    exact ⟨_, rfl, rfl⟩

/-- Where the transport cannot be opened, nothing is written. -/
theorem connect_unopened (core : Core) (now : Nat) (failure : ClientError) :
    core.connect now (some failure)
      = ({ core with link := core.link.close }, core.opened (some failure), some failure) := by
  obtain ⟨closing, hif, hopened⟩ := close_first core (some failure)
  unfold connect
  rw [hif, hopened]

/-- A write does not look at whether the transport is open. -/
theorem write_openUp (l : Link) (p : Packet) :
    l.openUp.write p = ((l.write p).1, (l.write p).2.openUp) := by
  unfold Link.write Link.openUp
  dsimp only
  split <;> rfl

/-- Nor does a read. -/
theorem read_openUp (l : Link) : l.openUp.read = (l.read.1, l.read.2.openUp) := by
  unfold Link.read Link.openUp
  dsimp only
  split <;> rfl

variable {core : Core} {now : Nat}

/-- Where CONNECT cannot be written, the transport is closed again. -/
theorem connect_unwritten {failure : ClientError} (h : core.offer.1 = some failure) :
    core.connect now none
      = ({ core with link := core.offer.2.close },
        core.opened none ++ [.wrote core.settings.toConnect (some failure), .closed],
        some failure) := by
  obtain ⟨closing, hif, hopened⟩ := close_first core none
  have hwrite : core.link.close.openUp.write core.settings.toConnect
      = (some failure, core.offer.2.openUp) := by
    rw [← h]
    exact write_openUp core.link core.settings.toConnect
  unfold connect handshake write
  rw [hif, hopened]
  dsimp only
  rw [hwrite]
  simp [close, Link.close, Link.openUp]

/-- After CONNECT, the answer decides: it refuses, or the core resumes. -/
theorem connect_answered (h : core.offer.1 = none) :
    core.connect now none =
      match refusal core.answer.1 with
      | some failure =>
          ({ core with link := core.answer.2.close }, core.greeting ++ [.closed], some failure)
      | none =>
          (({ core with link := core.answer.2.openUp }.resume now).1,
            core.greeting ++ ({ core with link := core.answer.2.openUp }.resume now).2, none) := by
  obtain ⟨closing, hif, hopened⟩ := close_first core none
  have hwrite : core.link.close.openUp.write core.settings.toConnect
      = (none, core.offer.2.openUp) := by
    rw [← h]
    exact write_openUp core.link core.settings.toConnect
  have hread : core.offer.2.openUp.read = (core.answer.1, core.answer.2.openUp) :=
    read_openUp core.offer.2
  unfold connect handshake write greeting
  rw [hif, hopened]
  dsimp only
  rw [hwrite]
  dsimp only
  rw [hread]
  cases refusal core.answer.1 with
  | some failure => rfl
  | none => rfl

/-- An attempt fails for one of the causes that are named, or makes a connection. -/
theorem attempt_cases (core : Core) (opening : Option ClientError) :
    (∃ events failure, core.FailedAttempt opening events failure) ∨
      (opening = none ∧ core.offer.1 = none ∧ refusal core.answer.1 = none) := by
  cases opening with
  | some reason => exact Or.inl ⟨_, _, .unopened reason⟩
  | none =>
      cases hoffer : core.offer.1 with
      | some reason => exact Or.inl ⟨_, _, .unwritten hoffer⟩
      | none =>
          cases hanswer : refusal core.answer.1 with
          | some reason => exact Or.inl ⟨_, _, .refused hoffer hanswer⟩
          | none => exact Or.inr ⟨rfl, rfl, rfl⟩

/-- An attempt that is named fails, and changes the network only. -/
theorem FailedAttempt.connect_eq {opening : Option ClientError} {events : List Event}
    {failure : ClientError} (h : core.FailedAttempt opening events failure) (now : Nat) :
    ∃ link, link.isOpen = false ∧
      core.connect now opening = ({ core with link }, events, some failure) := by
  cases h with
  | unopened => exact ⟨_, rfl, connect_unopened core now failure⟩
  | unwritten hoffer => exact ⟨_, rfl, connect_unwritten hoffer⟩
  | refused hoffer hanswer =>
      refine ⟨core.answer.2.close, rfl, ?_⟩
      rw [connect_answered hoffer, hanswer]

/-- Every attempt that fails is named. -/
theorem failedAttempt_of_connect {core' : Core} {opening : Option ClientError}
    {events : List Event} {failure : ClientError}
    (h : core.connect now opening = (core', events, some failure)) :
    core.FailedAttempt opening events failure := by
  rcases core.attempt_cases opening with ⟨events', failure', hfailed⟩ | ⟨rfl, hoffer, hanswer⟩
  · obtain ⟨link, -, heq⟩ := hfailed.connect_eq now
    obtain ⟨-, hresult⟩ := Prod.mk.inj (heq.symm.trans h)
    obtain ⟨rfl, hfailure⟩ := Prod.mk.inj hresult
    exact Option.some.inj hfailure ▸ hfailed
  · rw [connect_answered hoffer, hanswer] at h
    cases h

/-- No handler is called in an attempt that fails. -/
theorem FailedAttempt.notified_not_mem {opening : Option ClientError} {events : List Event}
    {failure : ClientError} (h : core.FailedAttempt opening events failure) (n : Notice)
    (handler : Option Handler) : .notified n handler ∉ events := by
  have hopened : .notified n handler ∉ core.opened opening := by
    unfold opened
    split <;> simp
  cases h <;> simp [hopened, greeting]

/-- A transport that it opened is closed last. -/
theorem FailedAttempt.closed_last {opening : Option ClientError} {events : List Event}
    {failure : ClientError} (h : core.FailedAttempt opening events failure) {host : String}
    {port : UInt16} (hopened : .opened host port none ∈ events) :
    events.getLast? = some .closed := by
  cases h with
  | unopened =>
      unfold opened at hopened
      split at hopened <;> simp at hopened
  | unwritten | refused => simp

/-! ### Before the connection is made -/

/-- No packet of the queue has a part in opening the transport. -/
theorem isOwn_opened (core : Core) (opening : Option ClientError) :
    ∀ e ∈ core.opened opening, e.isOwn = true := by
  unfold opened
  split <;> simp [Event.isOwn, Event.isAside]

/-- Nor has one in the CONNECT and the wait for its answer. -/
theorem isOwn_greeting (core : Core) : ∀ e ∈ core.greeting, e.isOwn = true :=
  List.forall_mem_append.mpr ⟨core.isOwn_opened none,
    by simp [Event.isOwn, Event.isAside, Settings.toConnect, Packet.kind]⟩

/-- No packet of the queue has a part in an attempt that fails. -/
theorem FailedAttempt.isOwn {opening : Option ClientError} {events : List Event}
    {failure : ClientError} (h : core.FailedAttempt opening events failure) :
    ∀ e ∈ events, e.isOwn = true := by
  cases h with
  | unopened => exact core.isOwn_opened _
  | unwritten =>
      exact List.forall_mem_append.mpr ⟨core.isOwn_opened none,
        by simp [Event.isOwn, Event.isAside, Settings.toConnect, Packet.kind]⟩
  | refused =>
      exact List.forall_mem_append.mpr ⟨core.isOwn_greeting, by simp [Event.isOwn, Event.isAside]⟩

/-- Connecting fails and changes the network only, or resumes. -/
theorem connect_cases (core : Core) (now : Nat) (opening : Option ClientError) :
    ∃ link events, (∀ e ∈ events, e.isOwn = true) ∧
      ((∃ failure, core.connect now opening = ({ core with link }, events, some failure)) ∨
        core.connect now opening = (({ core with link }.resume now).1,
          events ++ ({ core with link }.resume now).2, none)) := by
  rcases core.attempt_cases opening with ⟨events, failure, hfailed⟩ | ⟨rfl, hoffer, hanswer⟩
  · obtain ⟨link, -, hconnect⟩ := hfailed.connect_eq now
    exact ⟨link, events, hfailed.isOwn, Or.inl ⟨failure, hconnect⟩⟩
  · refine ⟨core.answer.2.openUp, core.greeting, core.isOwn_greeting, Or.inr ?_⟩
    rw [connect_answered hoffer, hanswer]

end Core

end Mqtt
