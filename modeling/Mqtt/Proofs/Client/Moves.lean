import Mqtt.Client.Run

/-!
# `Mqtt.Proofs.Client.Moves`: what happens to requests, one move at a time

A turn of a loop does many things at once: it queues several requests,
writes several packets, and may end the loop. `Core.Move` names the things
that can happen to the requests and exchanges of a core, one by one, with
the events that each leaves in the log. `Core.Moves` chains them.

A statement about requests in every run is proved move by move. Everything
that leaves requests where they are (opening and closing, writes that fail,
keep-alive) is one kind of move, `Move.aside`; a request that it tries to
write is one of the queue.
-/

set_option autoImplicit false

namespace Mqtt

/-- Whether an event has nothing to do with requests and exchanges: what
happens to the transport, a write that failed, the packets that a client
writes on its own account, and the end of a connection. -/
def Event.isAside : Event → Bool
  | .opened .. | .closed | .awaitedAnswer _ => true
  | .wrote p failure =>
      failure.isSome || p.kind = .connect || p.kind = .pingReq || p.kind = .disconnect
  | .notified (.connectionLost _) _ | .notified (.disconnected _) _ => true
  | _ => false

/-- Whether an event is aside and no packet of the queue has a part in it. -/
def Event.isOwn : Event → Bool
  | .wrote p _ => p.kind = .connect || p.kind = .pingReq || p.kind = .disconnect
  | e => e.isAside

/-- What a client does on its own account is aside. -/
theorem Event.isAside_of_isOwn {e : Event} (h : e.isOwn = true) : e.isAside = true := by
  cases e with
  | wrote p failure => cases p <;> simp [isOwn, isAside, Packet.kind] at h ⊢
  | _ => exact h

/-- What a client writes on its own account is no request. -/
theorem Event.isRequest_of_isOwn {p : Packet} {failure : Option ClientError}
    (h : (Event.wrote p failure).isOwn = true) : p.isRequest = false := by
  cases p <;> first | rfl | cases h

namespace Core

/-- A core without its network and its clock: what requests and exchanges
live in. -/
structure Books where
  settings : Settings
  session : Session
  pending : List Packet
  ids : IdAllocator
  inbox : List Request

/-- The books of a core. -/
def books (core : Core) : Books :=
  ⟨core.settings, core.session, core.pending, core.ids, core.inbox⟩

/-- What can happen to a core, and the events that it leaves. Only where
`connecting` is true can the server accept a connection. -/
inductive Move : (connecting : Bool) → Core → List Event → Core → Prop where
  /-- Something that leaves the books as they are. -/
  | aside {connecting : Bool} {core core' : Core} {events : List Event}
      (hbooks : core'.books = core.books) (haside : ∀ e ∈ events, e.isAside = true)
      (htried : ∀ p failure, .wrote p failure ∈ events → p.isRequest = true → p ∈ core.pending) :
      Move connecting core events core'
  /-- The application asks for something. -/
  | ask {connecting : Bool} (core : Core) (r : Request) :
      Move connecting core [.accepted r] { core with inbox := core.inbox ++ [r] }
  /-- The oldest request is turned into a packet. -/
  | queue {connecting : Bool} {core : Core} {r : Request} {inbox : List Request}
      (hinbox : core.inbox = r :: inbox) :
      Move connecting core ({ core with inbox }.accept r).2 ({ core with inbox }.accept r).1
  /-- A packet of the queue is written. -/
  | write {connecting : Bool} {core : Core} {front back : List Packet} {p : Packet}
      (hpending : core.pending = front ++ p :: back) :
      Move connecting core
        (.wrote p none :: ({ core with pending := front ++ back }.noteWritten p).2)
        ({ core with pending := front ++ back }.noteWritten p).1
  /-- A packet is routed, and its notice goes to a handler. -/
  | route {connecting : Bool} (core : Core) (p : Packet) (handler : Option Handler) :
      Move connecting core
        (.received p :: (core.route p).events
          ++ (core.route p).notice.toList.map (.notified · handler))
        (core.route p).core
  /-- The server accepts a connection. -/
  | resume (core : Core) (now : Nat) : Move true core (core.resume now).2 (core.resume now).1

/-- A chain of moves, and the log that it leaves. -/
inductive Moves (connecting : Bool) : Core → List Event → Core → Prop where
  | refl (core : Core) : Moves connecting core [] core
  | snoc {start core core' : Core} {log events : List Event}
      (hmoves : Moves connecting start log core) (hmove : Move connecting core events core') :
      Moves connecting start (log ++ events) core'

namespace Moves

variable {connecting : Bool}

/-- One move is a chain. -/
theorem single {core core' : Core} {events : List Event} (h : Move connecting core events core') :
    Moves connecting core events core' :=
  snoc (refl core) h

/-- Two chains make one. -/
theorem trans {start core core' : Core} {log events : List Event}
    (h : Moves connecting start log core) (h' : Moves connecting core events core') :
    Moves connecting start (log ++ events) core' := by
  induction h' with
  | refl => simpa using h
  | snoc _ hmove ih => rw [← List.append_assoc]; exact snoc ih hmove

/-- What leaves the books as they are and tells nothing. -/
theorem quiet {core core' : Core} (h : core'.books = core.books) :
    Moves connecting core [] core' :=
  single (.aside h (by simp) (by simp))

/-- Moves of either kind are moves of a client that may connect. -/
theorem toConnecting {start core : Core} {log : List Event}
    (h : Moves connecting start log core) : Moves true start log core := by
  induction h with
  | refl => exact refl _
  | snoc _ hmove ih =>
      -- Every constructor makes the same move where connecting is allowed.
      cases hmove with
      | aside hbooks haside htried => exact snoc ih (.aside hbooks haside htried)
      | ask => exact snoc ih (.ask _ _)
      | queue hinbox => exact snoc ih (.queue hinbox)
      | write hpending => exact snoc ih (.write hpending)
      | route => exact snoc ih (.route _ _ _)
      | resume => exact snoc ih (.resume _ _)

end Moves

variable {connecting : Bool}

/-! ### What does not count -/

/-- Accepting a request does not look at those behind it. -/
theorem accept_withInbox (core : Core) (r : Request) (inbox : List Request) :
    { core with inbox }.accept r
      = ({ (core.accept r).1 with inbox }, (core.accept r).2) := by
  cases r with
  | publish m =>
      by_cases hqos : m.qos = .atMostOnce
      · simp only [accept, packetOf, if_pos hqos]
        rfl
      · simp only [accept, packetOf, if_neg hqos]
        rfl
  | subscribe topic qos => rfl
  | unsubscribe topic => rfl

/-- What follows a write does not look at the queue. -/
theorem noteWritten_withPending (core : Core) (p : Packet) (pending : List Packet) :
    { core with pending }.noteWritten p
      = ({ (core.noteWritten p).1 with pending }, (core.noteWritten p).2) := by
  unfold noteWritten trackSent
  split
  · dsimp only
    split <;> rfl
  · rfl

/-- What a client does on its own account is a move that leaves the books alone. -/
theorem move_own {core core' : Core} {events : List Event} (hbooks : core'.books = core.books)
    (hown : ∀ e ∈ events, e.isOwn = true) : Move connecting core events core' := by
  refine .aside hbooks (fun e he => Event.isAside_of_isOwn (hown e he)) ?_
  intro p failure hmem hrequest
  cases (Event.isRequest_of_isOwn (hown _ hmem)).symm.trans hrequest

end Core

end Mqtt
