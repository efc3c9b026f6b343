import Mqtt.Proofs.Client.Handshake

/-!
# `Mqtt.Proofs.Client.Beats`: a client, one beat at a time

What an action makes a client do depends on where its loop stands. `Client.Beat`
names the things that can happen one after the other, each with the events that
it leaves, and with where the client stands before and after (`Standing`).

* `Client.beats_step`: everything that a client does in one action is a chain
  of beats, and so is a run (`Client.beats_run`).
* `Client.Beats.moves`: beats are moves of the core.

A statement about every run that depends on the order in which a loop does
things is proved beat by beat.
-/

set_option autoImplicit false

namespace Mqtt

/-- Whether an action connects. -/
def Action.isConnect : Action → Bool
  | .connect _ => true
  | _ => false

/-- Where a client stands between two beats. -/
inductive Standing where
  /-- There is no loop. -/
  | resting
  /-- The loop is in a turn. It has tried the first packets of the queue in this
  turn, and their writes timed out. -/
  | working (tried : Nat)
  /-- The loop waits, and has tried the whole queue. -/
  | parked
  /-- The loop is about to end. -/
  | ending
  /-- A handler has destroyed the loop and the core. -/
  | lost
  deriving DecidableEq

namespace Client

/-- What can happen to a client for the sake of an action. -/
inductive Beat : Action → Standing → Core → List Event → Standing → Core → Prop where
  /-- Something changes that no request has a part in. -/
  | quiet {a : Action} {s : Standing} {core core' : Core} (hbooks : core'.books = core.books) :
      Beat a s core [] s core'
  /-- The application asks for something. -/
  | ask {s : Standing} (core : Core) (r : Request) (hs : s ≠ .lost) :
      Beat (.request r) s core [.accepted r] s { core with inbox := core.inbox ++ [r] }
  /-- A loop that waited begins a turn. -/
  | wake {a : Action} (core : Core) : Beat a .parked core [] (.working 0) core
  /-- The oldest request is turned into a packet. -/
  | queue {a : Action} {tried : Nat} {core : Core} {r : Request} {inbox : List Request}
      (hinbox : core.inbox = r :: inbox) :
      Beat a (.working tried) core ({ core with inbox }.accept r).2 (.working tried)
        ({ core with inbox }.accept r).1
  /-- The first packet that was not tried is written. -/
  | write {a : Action} {core : Core} {front back : List Packet} {p : Packet}
      (hpending : core.pending = front ++ p :: back) :
      Beat a (.working front.length) core
        (.wrote p none :: ({ core with pending := front ++ back }.noteWritten p).2)
        (.working front.length) ({ core with pending := front ++ back }.noteWritten p).1
  /-- Its write times out. -/
  | miss {a : Action} {core core' : Core} {front back : List Packet} {p : Packet}
      {failure : ClientError} (hpending : core.pending = front ++ p :: back)
      (hbooks : core'.books = core.books) (htimeout : failure.isTimeout = true) :
      Beat a (.working front.length) core [.wrote p (some failure)]
        (.working (front.length + 1)) core'
  /-- Its write fails for good. -/
  | fail {a : Action} {core core' : Core} {front back : List Packet} {p : Packet}
      {failure : ClientError} (hpending : core.pending = front ++ p :: back)
      (hbooks : core'.books = core.books) (htimeout : failure.isTimeout = false) :
      Beat a (.working front.length) core [.wrote p (some failure)] .ending core'
  /-- All packets of the queue were tried. -/
  | park {a : Action} (core : Core) : Beat a (.working core.pending.length) core [] .parked core
  /-- A packet that came in is routed. The handler of its notice may destroy the loop. -/
  | route {a : Action} (core : Core) (p : Packet) (handler : Option Handler) {s : Standing}
      (hs : s = .working 0 ∨ s = .lost) :
      Beat a .parked core
        (.received p :: (core.route p).events
          ++ (core.route p).notice.toList.map (.notified · handler))
        s (core.route p).core
  /-- PINGREQ is written, or its write times out. -/
  | ping {a : Action} {tried : Nat} {core core' : Core} {failure : Option ClientError}
      (hbooks : core'.books = core.books) (htimeout : ∀ e ∈ failure, e.isTimeout = true) :
      Beat a (.working tried) core [.wrote .pingReq failure] (.working tried) core'
  /-- The write of PINGREQ fails for good. -/
  | pingFail {a : Action} {tried : Nat} {core core' : Core} {failure : ClientError}
      (hbooks : core'.books = core.books) (htimeout : failure.isTimeout = false) :
      Beat a (.working tried) core [.wrote .pingReq (some failure)] .ending core'
  /-- The loop has a reason to end: it is told to, or the connection is lost. -/
  | stop {a : Action} {s : Standing} (core : Core)
      (hs : s = .parked ∨ ∃ tried, s = .working tried) : Beat a s core [] .ending core
  /-- A loop that ends in good order tries to write DISCONNECT, with all else written. -/
  | leave {core core' : Core} {failure : Option ClientError} (hbooks : core'.books = core.books) :
      Beat (.disconnect true) (.working core.pending.length) core [.wrote .disconnect failure]
        .ending core'
  /-- The loop ends. The handler that is told may destroy the core. -/
  | finish {a : Action} {core core' : Core} {n : Notice} {handler : Option Handler} {s : Standing}
      (hbooks : core'.books = core.books) (hn : (Event.notified n handler).isOwn = true)
      (hs : s = .resting ∨ s = .lost) :
      Beat a .ending core [.closed, .notified n handler] s core'
  /-- Connecting fails. -/
  | attempt {core : Core} {opening : Option ClientError} {events : List Event}
      {failure : ClientError} (link : Link) (hfailed : core.FailedAttempt opening events failure) :
      Beat (.connect opening) .resting core events .resting { core with link }
  /-- A connection is made. -/
  | connect (core : Core) (link : Link) (now : Nat) :
      Beat (.connect none) .resting core
        (core.greeting ++ ({ core with link }.resume now).2) (.working 0)
        ({ core with link }.resume now).1

/-- A chain of beats for the sake of certain actions, and the log that it leaves. -/
inductive Beats (P : Action → Prop) (s₀ : Standing) (core₀ : Core) :
    List Event → Standing → Core → Prop where
  | refl : Beats P s₀ core₀ [] s₀ core₀
  | snoc {a : Action} {s s' : Standing} {core core' : Core} {log events : List Event}
      (hbeats : Beats P s₀ core₀ log s core) (ha : P a) (hbeat : Beat a s core events s' core') :
      Beats P s₀ core₀ (log ++ events) s' core'

namespace Beats

variable {P : Action → Prop} {a : Action} {s s₁ s₂ : Standing} {core core₁ core₂ : Core}

/-- One beat is a chain. -/
theorem single {events : List Event} (ha : P a) (h : Beat a s core events s₁ core₁) :
    Beats P s core events s₁ core₁ :=
  snoc refl ha h

/-- Two chains make one. -/
theorem trans {log events : List Event} (h : Beats P s core log s₁ core₁)
    (h' : Beats P s₁ core₁ events s₂ core₂) : Beats P s core (log ++ events) s₂ core₂ := by
  induction h' with
  | refl => simpa using h
  | snoc _ ha hbeat ih =>
      rw [← List.append_assoc]
      exact snoc ih ha hbeat

end Beats

/-! ### Beats are moves -/

/-- A beat is a chain of moves, and connects only for an action that does. -/
theorem Beat.moves {a : Action} {s s' : Standing} {core core' : Core} {events : List Event}
    (h : Beat a s core events s' core') : Core.Moves a.isConnect core events core' := by
  -- What a client does on its own account is one move.
  have hown : ∀ {connecting : Bool} {core core' : Core} {events : List Event},
      core'.books = core.books → (∀ e ∈ events, e.isOwn = true) →
      Core.Moves connecting core events core' :=
    fun hbooks hevents => .single (Core.move_own hbooks hevents)
  cases h with
  | quiet hbooks => exact .quiet hbooks
  | ask _ r => exact .single (.ask core r)
  | wake | park | stop => exact .refl core
  | queue hinbox => exact .single (.queue hinbox)
  | write hpending => exact .single (.write hpending)
  | miss hpending hbooks | fail hpending hbooks =>
      exact .single (.aside hbooks (by simp [Event.isAside]) (by simp [hpending]))
  | route _ p handler => exact .single (.route core p handler)
  | ping hbooks | pingFail hbooks => exact hown hbooks (by simp [Event.isOwn, Packet.kind])
  | leave hbooks => exact hown hbooks (by simp [Event.isOwn, Packet.kind])
  | finish hbooks hn => exact hown hbooks (List.forall_mem_cons.mpr ⟨rfl, by simpa using hn⟩)
  | attempt link hfailed => exact hown rfl hfailed.isOwn
  | connect _ link now =>
      have hlink : { core with link }.books = core.books := rfl
      exact .snoc (hown hlink core.isOwn_greeting) (.resume { core with link } now)

/-- A chain of beats is one of moves. -/
theorem Beats.moves {P : Action → Prop} {s s' : Standing} {core core' : Core} {log : List Event}
    (h : Beats P s core log s' core') : Core.Moves true core log core' := by
  induction h with
  | refl => exact .refl core
  | snoc _ _ hbeat ih => exact ih.trans hbeat.moves.toConnecting

/-- It makes no connection unless an action does. -/
theorem Beats.moves_of_action {a : Action} {s s' : Standing} {core core' : Core}
    {log : List Event} (h : Beats (· = a) s core log s' core') :
    Core.Moves a.isConnect core log core' := by
  induction h with
  | refl => exact .refl core
  | snoc _ ha hbeat ih => exact ih.trans (ha ▸ hbeat.moves)

/-! ### The operations of a core -/

variable {P : Action → Prop} {a : Action}

/-- Where a client stands after something that may fail for good. -/
def Standing.unless (s : Standing) (failure : Option ClientError) : Standing :=
  if failure.isSome then .ending else s

/-- Turning the first requests into packets one after the other is a chain of beats. -/
theorem beats_acceptAll (ha : P a) (tried : Nat) (core : Core) {inbox rs : List Request}
    (hinbox : inbox = rs ++ core.inbox) :
    Beats P (.working tried) { core with inbox } (core.acceptAll rs).2
      (.working tried) (core.acceptAll rs).1 := by
  -- The core changes with every request, but not the requests that stay in its inbox:
  -- those that are left are put in front of them for each step anew.
  subst hinbox
  induction rs generalizing core with
  | nil => exact .refl
  | cons r rs ih =>
      have hkept : (core.accept r).1.inbox = core.inbox :=
        congrArg (Core.inbox ·.1) (Core.accept_withInbox core r core.inbox)
      have hfirst : Beat a (.working tried) { core with inbox := r :: (rs ++ core.inbox) }
          ({ core with inbox := rs ++ core.inbox }.accept r).2 (.working tried)
          ({ core with inbox := rs ++ core.inbox }.accept r).1 :=
        .queue rfl
      have hrest := ih (core.accept r).1
      rw [Core.accept_withInbox] at hfirst
      rw [hkept] at hrest
      exact (Beats.single ha hfirst).trans hrest

/-- Writing the packets behind those that were tried is a chain of beats. -/
theorem beats_sendAll (ha : P a) (core : Core) (ps kept : List Packet) :
    Beats P (.working kept.length) { core with pending := kept ++ ps } (core.sendAll ps).events
      (Standing.unless (.working (kept ++ (core.sendAll ps).kept).length) (core.sendAll ps).failure)
      { (core.sendAll ps).core with pending := kept ++ (core.sendAll ps).kept } := by
  -- `kept` is what the queue holds in front of the packets that are still to
  -- be tried: those whose write timed out.
  induction ps generalizing core kept with
  | nil =>
      rw [show (core.sendAll []) = ⟨core, [], [], none⟩ from rfl]
      simp only [List.append_nil]
      exact .refl
  | cons p ps ih =>
      unfold Core.sendAll
      split
      · next core₁ hwrite =>
          -- The network is all that a write changes.
          obtain rfl : (core.write p).2 = core₁ := congrArg Prod.snd hwrite
          have hwritten : Beat a (.working kept.length)
              { (core.write p).2 with pending := kept ++ p :: ps }
              (.wrote p none :: ({ (core.write p).2 with pending := kept ++ ps }.noteWritten p).2)
              (.working kept.length)
              ({ (core.write p).2 with pending := kept ++ ps }.noteWritten p).1 :=
            .write rfl
          rw [Core.noteWritten_withPending] at hwritten
          have hquiet : Beat a (.working kept.length) { core with pending := kept ++ p :: ps } []
              (.working kept.length) { (core.write p).2 with pending := kept ++ p :: ps } :=
            .quiet rfl
          exact ((Beats.single ha hquiet).snoc ha hwritten).trans
            (ih ((core.write p).2.noteWritten p).1 kept)
      · next failure core₁ hwrite =>
          obtain rfl : (core.write p).2 = core₁ := congrArg Prod.snd hwrite
          -- After a timeout the next packet is tried; any other failure ends it.
          split
          · next htimeout =>
              have hmiss : Beat a (.working kept.length) { core with pending := kept ++ p :: ps }
                  [.wrote p (some failure)] (.working (kept.length + 1))
                  { (core.write p).2 with pending := kept ++ p :: ps } :=
                .miss rfl rfl htimeout
              have hrest := ih (core.write p).2 (kept ++ [p])
              rw [List.length_append, List.append_assoc, List.append_assoc] at hrest
              exact (Beats.single ha hmiss).trans hrest
          · next htimeout =>
              exact .single ha (.fail rfl rfl (Bool.eq_false_iff.mpr htimeout))

/-- So is writing the queue. -/
theorem beats_flush (ha : P a) (core : Core) :
    Beats P (.working 0) core core.flush.2.1
      (Standing.unless (.working core.flush.1.pending.length) core.flush.2.2) core.flush.1 :=
  beats_sendAll ha core core.pending []

/-- Queueing and writing. -/
theorem beats_serve (ha : P a) (core : Core) :
    Beats P (.working 0) core core.serve.2.1
      (Standing.unless (.working core.serve.1.pending.length) core.serve.2.2) core.serve.1 :=
  (beats_acceptAll ha 0 { core with inbox := [] } (List.append_nil core.inbox).symm).trans
    (beats_flush ha core.drainInbox.1)

/-- Keeping the connection alive. -/
theorem beats_tick (ha : P a) (core : Core) (now : Nat) (tried : Nat) :
    Beats P (.working tried) core (core.tick now).2.1
      (Standing.unless (.working tried) (core.tick now).2.2) (core.tick now).1 := by
  unfold Core.tick
  split
  · exact .refl
  · exact .single ha (.stop core (Or.inr ⟨tried, rfl⟩))
  · split
    · next core₁ hwrite =>
        obtain rfl : (core.write .pingReq).2 = core₁ := congrArg Prod.snd hwrite
        exact .single ha (.ping rfl (by simp))
    · next failure core₁ hwrite =>
        obtain rfl : (core.write .pingReq).2 = core₁ := congrArg Prod.snd hwrite
        dsimp only
        split
        · next htimeout => exact .single ha (.ping rfl (by simpa using htimeout))
        · next htimeout => exact .single ha (.pingFail rfl (Bool.eq_false_iff.mpr htimeout))

/-- Parting serves the queue, and then tries DISCONNECT. -/
theorem beats_part (ha : P (.disconnect true)) (core : Core) :
    Beats P (.working 0) core core.part.2.1 .ending core.part.1 := by
  have hserve := beats_serve ha core
  unfold Core.part
  split
  · next core₁ events failure heq =>
      rw [heq] at hserve
      exact hserve
  · next core₁ events heq =>
      rw [heq] at hserve
      exact hserve.snoc ha (.leave rfl)

/-! ### The operations of a client -/

/-- Where a client stands, and what its core is. -/
inductive At (c : Client) : Standing → Core → Prop where
  | resting {core : Core} (hloop : c.loop = .idle core ∨ c.loop = .finished core) :
      At c .resting core
  | top {core : Core} (hloop : c.loop = .running .top core) : At c (.working 0) core
  | parked {core : Core} (hloop : c.loop = .running .parked core) : At c .parked core
  | lost (core : Core) (hloop : c.loop.core? = none) : At c .lost core

/-- A client is without a core when a handler destroyed it. -/
theorem core?_eq_none_iff {loop : Loop} :
    loop.core? = none ↔ loop = .destroyed ∨ loop = .gone := by
  cases loop <;> simp [Loop.core?]

/-- Taking a core back from a loop that has ended changes nothing about that. -/
theorem At.collect {c : Client} {s : Standing} {core : Core} (h : c.At s core) :
    c.collect.1.At s core := by
  unfold Client.collect
  cases h with
  | resting hloop =>
      rcases hloop with hloop | hloop <;> rw [hloop]
      · exact .resting (Or.inl hloop)
      · exact .resting (Or.inl rfl)
  | top hloop =>
      rw [hloop]
      exact .top hloop
  | parked hloop =>
      rw [hloop]
      exact .parked hloop
  | lost _ hloop =>
      rcases core?_eq_none_iff.mp hloop with heq | heq <;> rw [heq]
      · exact .lost core rfl
      · exact .lost core hloop

/-- Beats lead to a client and its log. -/
def Reaches (P : Action → Prop) (s₀ : Standing) (core₀ : Core) (result : Client × List Event) :
    Prop :=
  ∃ s core, Beats P s₀ core₀ result.2 s core ∧ result.1.At s core

/-- A client that stays where it is. -/
theorem Reaches.stay {c : Client} {s : Standing} {core : Core} (h : c.At s core) :
    Reaches P s core (c, []) :=
  ⟨s, core, .refl, h⟩

/-- What was reached later was reached from the start of the beats before. -/
theorem Reaches.after {s s₁ : Standing} {core core₁ : Core} {log : List Event}
    {result : Client × List Event} (h : Beats P s core log s₁ core₁)
    (h' : Reaches P s₁ core₁ result) : Reaches P s core (result.1, log ++ result.2) := by
  obtain ⟨s₂, core₂, hbeats, hat⟩ := h'
  exact ⟨s₂, core₂, h.trans hbeats, hat⟩

/-- A loop ends when the core has done what it does last. -/
theorem beats_finish (ha : P a) (c : Client) (core : Core) (ending : Ending) {s₀ : Standing}
    (h : Beats P s₀ core (conclude core ending).2.1 .ending (conclude core ending).1) :
    Reaches P s₀ core (c.finish core ending) := by
  have hnotice : ∀ handler, (Event.notified (conclude core ending).2.2 handler).isOwn = true := by
    intro handler
    unfold conclude
    split <;> rfl
  have hclose : ∀ {s : Standing}, s = .resting ∨ s = .lost →
      Beats P s₀ core (c.finish core ending).2 s (conclude core ending).1.close :=
    fun hs => h.snoc ha (.finish rfl (hnotice _) hs)
  by_cases hsurvive : c.handlers.survive (conclude core ending).2.2 = true
  · refine ⟨.resting, _, hclose (Or.inl rfl), .resting (Or.inr ?_)⟩
    exact if_pos hsurvive
  · refine ⟨.lost, _, hclose (Or.inr rfl), .lost _ ?_⟩
    exact congrArg Loop.core? (if_neg hsurvive)

/-- A loop that lost its connection ends at once. -/
theorem beats_lost (ha : P a) (c : Client) (core : Core) (reason : ClientError) :
    Reaches P .ending core (c.finish core (.lost reason)) :=
  beats_finish ha c core (.lost reason) .refl

/-- The end of a turn. -/
theorem beats_endTurn (ha : P a) (c : Client) (core : Core) :
    Reaches P (.working 0) core (c.endTurn core) := by
  have htick := beats_tick ha core c.now 0
  unfold endTurn
  split
  · next core₁ events heq =>
      rw [heq] at htick
      exact ⟨_, _, htick, .top rfl⟩
  · next core₁ events failure heq =>
      rw [heq] at htick
      exact Reaches.after htick (beats_lost ha c core₁ failure)

/-- The turn of a loop that a packet comes to. -/
theorem beats_receive (ha : P a) (c : Client) (core : Core) (p : Packet) :
    Reaches P .parked core (c.receive core p) := by
  have hheard : Beats P .parked core [] .parked
      { core with keepAlive := core.keepAlive.heard c.now } :=
    .single ha (.quiet rfl)
  -- Which handler the notice goes to is known when the notice is.
  have hroute := fun handler (s : Standing) (hs : s = .working 0 ∨ s = .lost) =>
    hheard.snoc ha (.route _ p handler hs)
  unfold receive
  dsimp only
  split
  · next hnotice =>
      have hbeats := hroute none (.working 0) (Or.inl rfl)
      rw [hnotice] at hbeats
      simp only [Option.toList_none, List.map_nil, List.append_nil, List.nil_append] at hbeats
      exact Reaches.after hbeats (beats_endTurn ha c _)
  · next notice hnotice =>
      have hbeats := hroute (c.handlers notice.kind)
      rw [hnotice] at hbeats
      simp only [Option.toList_some, List.map_cons, List.map_nil, List.nil_append] at hbeats
      split
      · exact Reaches.after (hbeats (.working 0) (Or.inl rfl)) (beats_endTurn ha c _)
      · exact ⟨.lost, _, hbeats .lost (Or.inr rfl), .lost _ rfl⟩

/-- The turn of a loop that was parked. -/
theorem beats_wake (ha : P a) {c : Client} {core : Core} (h : c.At .parked core) :
    Reaches P .parked core (c.wake core) := by
  unfold wake
  split
  · next r inbox hinbox =>
      have hqueued : Beats P .parked core ({ core with inbox }.accept r).2 (.working 0)
          ({ core with inbox }.accept r).1 :=
        (Beats.single ha (.wake core)).snoc ha (.queue hinbox)
      exact Reaches.after hqueued (beats_endTurn ha c _)
  · split
    · exact .stay h
    · next arrival incoming hincoming =>
        have hread : Beats P .parked core [] .parked
            { core with link := { core.link with incoming } } :=
          .single ha (.quiet rfl)
        dsimp only
        split
        · exact Reaches.after hread (beats_receive ha c _ _)
        · split
          · exact Reaches.after (hread.snoc ha (.wake _)) (beats_endTurn ha c _)
          · exact Reaches.after (hread.snoc ha (.stop _ (Or.inl rfl))) (beats_lost ha c _ _)

/-- One turn. -/
theorem beats_turn (ha : P a) {c : Client} {s : Standing} {core : Core} (h : c.At s core) :
    Reaches P s core c.turn := by
  unfold turn
  cases h with
  | resting hloop =>
      rcases hloop with hloop | hloop <;> rw [hloop]
      · exact .stay (.resting (Or.inl hloop))
      · exact .stay (.resting (Or.inr hloop))
  | top hloop =>
      have hserve := beats_serve ha core
      rw [hloop]
      dsimp only
      split
      · next core₁ events heq =>
          rw [heq] at hserve
          -- No event comes with the step from working to parked.
          refine ⟨.parked, core₁, ?_, .parked rfl⟩
          rw [← List.append_nil events]
          exact hserve.snoc ha (.park core₁)
      · next core₁ events failure heq =>
          rw [heq] at hserve
          exact Reaches.after hserve (beats_lost ha c core₁ failure)
  | parked hloop =>
      rw [hloop]
      exact beats_wake ha (.parked hloop)
  | lost _ hloop =>
      rcases core?_eq_none_iff.mp hloop with heq | heq <;> rw [heq] <;>
        exact .stay (.lost core hloop)

/-- A loop is shut down that waits, or that is about to write its queue. -/
theorem beats_stop {graceful : Bool} (ha : P (.disconnect graceful)) (c : Client) (core : Core)
    {s : Standing} (hs : s = .parked ∨ s = .working 0) :
    Reaches P s core (c.finish core (.shutdown graceful)) := by
  refine beats_finish ha c core (.shutdown graceful) ?_
  cases graceful with
  | true =>
      have hpart := beats_part ha core
      rcases hs with rfl | rfl
      · exact (Beats.single ha (.wake core)).trans hpart
      · exact hpart
  | false => exact .single ha (.stop core (hs.imp_right fun h => ⟨0, h⟩))

/-- Disconnecting. A loop that is about to write its queue takes its turn first,
which may end it. -/
theorem beats_disconnect {graceful : Bool} (ha : P (.disconnect graceful)) {c : Client}
    {s : Standing} {core : Core} (h : c.At s core) :
    Reaches P s core ((c.disconnect graceful).1, (c.disconnect graceful).2.1) := by
  -- Taking the core back at the end of a disconnect changes where it lies, and adds no event.
  have hshut : Reaches P s core (c.shutDown graceful) := by
    unfold shutDown
    cases h with
    | resting hloop =>
        rcases hloop with hloop | hloop <;> rw [hloop]
        · exact .stay (.resting (Or.inl hloop))
        · exact .stay (.resting (Or.inr hloop))
    | top hloop =>
        obtain ⟨s₁, core₁, hbeats, hat⟩ := beats_turn ha (.top hloop)
        rw [hloop]
        dsimp only
        -- The turn at the top leaves the loop parked, or ends it before the signal was seen.
        cases hat with
        | resting hloop₁ =>
            rcases hloop₁ with hloop₁ | hloop₁ <;> rw [hloop₁]
            · exact ⟨.resting, core₁, hbeats, .resting (Or.inl hloop₁)⟩
            · exact ⟨.resting, core₁, hbeats, .resting (Or.inr hloop₁)⟩
        | top hloop₁ =>
            rw [hloop₁]
            exact Reaches.after hbeats (beats_stop ha c.turn.1 core₁ (Or.inr rfl))
        | parked hloop₁ =>
            rw [hloop₁]
            exact Reaches.after hbeats (beats_stop ha c.turn.1 core₁ (Or.inl rfl))
        | lost _ hloop₁ =>
            rcases core?_eq_none_iff.mp hloop₁ with heq | heq <;> rw [heq] <;>
              exact ⟨.lost, core₁, hbeats, .lost core₁ hloop₁⟩
    | parked hloop =>
        rw [hloop]
        exact beats_stop ha c core (Or.inl rfl)
    | lost _ hloop =>
        rcases core?_eq_none_iff.mp hloop with heq | heq <;> rw [heq] <;>
          exact .stay (.lost core hloop)
  obtain ⟨s₁, core₁, hbeats, hat⟩ := hshut
  exact ⟨s₁, core₁, hbeats, hat.collect⟩

/-- A client without a core does nothing. -/
theorem step_of_core?_eq_none (c : Client) (a : Action) (hloop : c.loop.core? = none) :
    (c.step a).2.1 = [] ∧ (c.step a).1.loop.core? = none := by
  obtain ⟨loop, connected, handlers, now⟩ := c
  have hsend : ∀ r, (Client.send ⟨loop, connected, handlers, now⟩ r)
      = (⟨loop, connected, handlers, now⟩, [], false) := by
    intro r
    unfold send
    rw [hloop]
  -- A request goes through `isValid` first, and connecting through the flag, which still may be
  -- set.
  cases a with
  | request r =>
      refine ⟨?_, ?_⟩ <;> simp [step, request, hsend, hloop]
  | connect opening =>
      rcases core?_eq_none_iff.mp hloop with rfl | rfl <;> cases connected <;> exact ⟨rfl, rfl⟩
  | _ => rcases core?_eq_none_iff.mp hloop with rfl | rfl <;> exact ⟨rfl, rfl⟩

/-- A client that has no loop connects its core. -/
theorem connect_of_resting {c : Client} {core : Core}
    (hloop : c.loop = .idle core ∨ c.loop = .finished core) (hconnected : c.connected = false)
    (opening : Option ClientError) :
    c.connect opening =
      match core.connect c.now opening with
      | (core', events, none) =>
          ({ c with loop := .running .top core', connected := true }, events, none)
      | (core', events, some failure) =>
          ({ c with loop := .idle core' }, events, some failure) := by
  obtain ⟨loop, connected, handlers, now⟩ := c
  obtain rfl : connected = false := hconnected
  rcases hloop with rfl | rfl <;> rfl

/-- A loop that runs is not connected again. -/
theorem connect_of_running {c : Client} {phase : Phase} {core : Core}
    (hloop : c.loop = .running phase core) (hconnected : c.connected = false)
    (opening : Option ClientError) : c.connect opening = (c, [], some .loopGone) := by
  unfold connect
  rw [if_neg (by rw [hconnected]; exact Bool.false_ne_true), hloop]

/-- Connecting, unless the client takes itself for connected. -/
theorem beats_connect {opening : Option ClientError} (ha : P (.connect opening)) {c : Client}
    {s : Standing} {core : Core} (h : c.At s core) :
    Reaches P s core ((c.connect opening).1, (c.connect opening).2.1) := by
  by_cases hconnected : c.connected = true
  · unfold connect
    rw [if_pos hconnected]
    exact .stay h
  · cases h with
    | resting hloop =>
        rw [connect_of_resting hloop (Bool.eq_false_iff.mpr hconnected)]
        -- Either the attempt fails as a whole, or the opening, the write and the answer are all
        -- good.
        rcases core.attempt_cases opening with ⟨events, failure, hfailed⟩ | ⟨rfl, hoffer, hanswer⟩
        · obtain ⟨link, -, hconnect⟩ := hfailed.connect_eq c.now
          rw [hconnect]
          exact ⟨_, _, .single ha (.attempt link hfailed), .resting (Or.inl rfl)⟩
        · rw [Core.connect_answered hoffer, hanswer]
          exact ⟨_, _, .single ha (.connect core core.answer.2.openUp c.now), .top rfl⟩
    | top hloop =>
        rw [connect_of_running hloop (Bool.eq_false_iff.mpr hconnected)]
        exact .stay (.top hloop)
    | parked hloop =>
        rw [connect_of_running hloop (Bool.eq_false_iff.mpr hconnected)]
        exact .stay (.parked hloop)
    | lost _ hloop =>
        obtain ⟨hevents, hlost⟩ := step_of_core?_eq_none c (.connect opening) hloop
        refine ⟨.lost, core, ?_, .lost core hlost⟩
        rw [show (c.connect opening).2.1 = [] from hevents]
        exact .refl

/-- Changing a core in its place. -/
theorem core?_mapCore (f : Core → Core) (loop : Loop) :
    (loop.mapCore f).core? = loop.core?.map f := by
  cases loop <;> rfl

/-- A client whose core is changed in its place stands where it stood. -/
theorem At.mapCore {c : Client} {s : Standing} {core : Core} (h : c.At s core) (f : Core → Core) :
    Client.At { c with loop := c.loop.mapCore f } s (f core) := by
  cases h with
  | resting hloop =>
      exact .resting (hloop.imp (congrArg (Loop.mapCore f)) (congrArg (Loop.mapCore f)))
  | top hloop => exact .top (congrArg (Loop.mapCore f) hloop)
  | parked hloop => exact .parked (congrArg (Loop.mapCore f) hloop)
  | lost _ hloop => exact .lost _ (by rw [core?_mapCore, hloop]; rfl)

/-- Asking something of a client. -/
theorem beats_request {r : Request} (ha : P (.request r)) {c : Client} {s : Standing} {core : Core}
    (h : c.At s core) : Reaches P s core ((c.request r).1, (c.request r).2.1) := by
  unfold request send
  split
  · split
    · exact .stay h
    · next core₀ hcore =>
        have hs : s ≠ .lost := by
          rintro rfl
          cases h with
          | lost _ hloop => cases hloop.symm.trans hcore
        exact ⟨s, _, .single ha (.ask core r hs), h.mapCore _⟩
  · exact .stay h

/-- A change of what the network has in store. -/
theorem beats_mapLink (ha : P a) {c : Client} {s : Standing} {core : Core} (h : c.At s core)
    (f : Link → Link) : Reaches P s core (c.mapLink f, []) :=
  ⟨s, { core with link := f core.link }, .single ha (.quiet rfl), h.mapCore _⟩

/-- Everything that a client does in one action is a chain of beats. -/
theorem beats_step (ha : P a) {c : Client} {s : Standing} {core : Core} (h : c.At s core) :
    Reaches P s core ((c.step a).1, (c.step a).2.1) := by
  cases a with
  | connect opening => exact beats_connect ha h
  | disconnect graceful => exact beats_disconnect ha h
  | request r => exact beats_request ha h
  | on kind handler | elapse time =>
      refine .stay ?_
      cases h with
      | resting hloop => exact .resting hloop
      | top hloop => exact .top hloop
      | parked hloop => exact .parked hloop
      | lost _ hloop => exact .lost core hloop
  | turn => exact beats_turn ha h
  | expect incoming => exact beats_mapLink ha h fun l => { l with incoming }
  | arrive incoming =>
      exact beats_mapLink ha h fun l => { l with incoming := l.incoming ++ incoming }
  | outcomes outcomes => exact beats_mapLink ha h fun l => { l with outcomes }

/-- So is everything that it does in a run. -/
theorem beats_run (as : List Action) {c : Client} {s : Standing} {core : Core} (h : c.At s core) :
    Reaches (fun _ => True) s core (c.run as) := by
  induction as generalizing c s core with
  | nil => exact .stay h
  | cons a as ih =>
      obtain ⟨s₁, core₁, hbeats, hat⟩ := beats_step (P := fun _ => True) (a := a) trivial h
      exact Reaches.after hbeats (ih hat)

/-- A client that has a core stands somewhere with it. -/
theorem exists_at {c : Client} {core : Core} (hcore : c.loop.core? = some core) :
    ∃ s, c.At s core := by
  cases hloop : c.loop with
  | idle core₀ =>
      obtain rfl : core₀ = core := Option.some.inj (by rw [hloop] at hcore; exact hcore)
      exact ⟨_, .resting (Or.inl hloop)⟩
  | running phase core₀ =>
      obtain rfl : core₀ = core := Option.some.inj (by rw [hloop] at hcore; exact hcore)
      cases phase with
      | top => exact ⟨_, .top hloop⟩
      | parked => exact ⟨_, .parked hloop⟩
  | finished core₀ =>
      obtain rfl : core₀ = core := Option.some.inj (by rw [hloop] at hcore; exact hcore)
      exact ⟨_, .resting (Or.inr hloop)⟩
  | destroyed | gone =>
      rw [hloop] at hcore
      cases hcore

/-- Wherever a client stands, it has that core if it has one. -/
theorem At.eq_core {c : Client} {s : Standing} {core last : Core} (h : c.At s core)
    (hlast : c.loop.core? = some last) : last = core := by
  cases h with
  | resting hloop =>
      rcases hloop with hloop | hloop <;>
        exact Option.some.inj (by rw [← hlast, hloop]; rfl)
  | top hloop | parked hloop => exact Option.some.inj (by rw [← hlast, hloop]; rfl)
  | lost _ hloop => cases hloop.symm.trans hlast

end Client

/-- Writing the queue is a chain of moves. -/
theorem Core.moves_flush (core : Core) : Moves false core core.flush.2.1 core.flush.1 :=
  (Client.beats_flush (P := (· = .turn)) rfl core).moves_of_action

end Mqtt
