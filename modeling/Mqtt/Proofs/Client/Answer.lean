import Mqtt.Proofs.Client.Report
import Mqtt.Proofs.Client.Stream
import Mqtt.Proofs.Client.Succession

/-!
# `Mqtt.Proofs.Client.Answer`: the server is answered in order

Answers to the server wait in the same queue as requests. What a connection still owes
the server (`Debt`) can be told from the log: a packet that comes in adds its answer,
and only the first answer that is due may be written.

* `Debt.due_of_run?`: what is written and what is still due are the answers to all
  that came in.
* `Core.route_answers`, `Core.resume_answers`: routing queues the answer to a packet
  behind the others, and a new connection drops them all.
* `Client.Beats.owes`: a connection owes the answers in the queue.
* `Client.answers_in_order`: what this says of runs.
-/

set_option autoImplicit false

namespace Mqtt

/-- Whether a packet acknowledges a packet of the server. -/
def Packet.isAnswer : Packet → Bool
  | .pubAck _ | .pubRec _ | .pubComp _ => true
  | _ => false

/-- The packet that acknowledges a packet of the server, if it asks for one. -/
def Packet.answer? : Packet → Option Packet
  | .publish m =>
      match m.qos with
      | .atMostOnce => none
      | .atLeastOnce => some (.pubAck m.packetId)
      | .exactlyOnce => some (.pubRec m.packetId)
  | .pubRel packetId => some (.pubComp packetId)
  | _ => none

/-- A request answers nothing. -/
theorem Packet.isAnswer_of_isRequest {p : Packet} (h : p.isRequest = true) :
    p.isAnswer = false := by
  cases p <;> first | rfl | cases h

namespace Log

/-- The answers that were written, in order. -/
def answers (log : List Event) : List Packet :=
  log.filterMap fun
    | .wrote p none => if p.isAnswer then some p else none
    | _ => none

/-- The answers to the packets that came in, in the order of these. -/
def answersDue (log : List Event) : List Packet :=
  log.filterMap fun
    | .received p => p.answer?
    | _ => none

/-- Logs in a row write the answers of each, in order. -/
theorem answers_append (log later : List Event) :
    answers (log ++ later) = answers log ++ answers later :=
  List.filterMap_append

/-- They also owe the answers of each. -/
theorem answersDue_append (log later : List Event) :
    answersDue (log ++ later) = answersDue log ++ answersDue later :=
  List.filterMap_append

end Log

/-! ### What is due -/

/-- What a connection owes the server. -/
inductive Debt where
  /-- There is no connection. -/
  | shut
  /-- These answers are still to be written, the first one first. -/
  | owing (due : List Packet)
  /-- Nothing, and DISCONNECT was handed to the transport. -/
  | parted
  deriving DecidableEq

namespace Debt

/-- What is owed after a write. Only the first answer that is due may be written, and
DISCONNECT only when there is none. -/
def settle (due : List Packet) (p : Packet) (failure : Option ClientError) : Option Debt :=
  if p = .disconnect then if due = [] then some .parted else none
  else if failure = none ∧ p.isAnswer = true then
    if due.head? = some p then some (.owing due.tail) else none
  else some (.owing due)

/-- What is owed after an event, if the event may come. -/
def next? : Debt → Event → Option Debt
  | .shut, .opened _ _ none => some (.owing [])
  | .shut, .received _ | .shut, .wrote .. => none
  | .shut, _ => some .shut
  | .owing due, .received p => some (.owing (due ++ p.answer?.toList))
  | .owing due, .wrote p failure => settle due p failure
  | .owing _, .opened .. => none
  | .owing _, .closed => some .shut
  | .owing due, _ => some (.owing due)
  | .parted, .received _ | .parted, .wrote .. | .parted, .opened .. => none
  | .parted, .closed => some .shut
  | .parted, _ => some .parted

/-- What is owed after a log, if its events may come one after the other. -/
def run? (debt : Debt) (log : List Event) : Option Debt :=
  log.foldlM next? debt

/-- What is owed after two logs in a row is owed after the second, by what the first
left. -/
theorem run?_append (debt : Debt) (log later : List Event) :
    debt.run? (log ++ later) = (debt.run? log).bind (·.run? later) :=
  List.foldlM_append

/-- The first event has to be allowed by what is owed. -/
theorem run?_cons (debt : Debt) (e : Event) (log : List Event) :
    debt.run? (e :: log) = (debt.next? e).bind (·.run? log) :=
  rfl

/-- A connection owes nothing when it is opened. -/
theorem run?_of_opened {debt : Debt} {before after : List Event} {host : String} {port : UInt16}
    (h : shut.run? (before ++ .opened host port none :: after) = some debt) :
    (owing []).run? after = some debt := by
  rw [run?_append] at h
  obtain ⟨earlier, -, hrest⟩ := Option.bind_eq_some_iff.mp h
  rw [run?_cons] at hrest
  obtain ⟨opened, hnext, hafter⟩ := Option.bind_eq_some_iff.mp hrest
  cases earlier with
  | shut => exact (Option.some.inj hnext) ▸ hafter
  | owing | parted => cases hnext

variable {debt : Debt} {life : List Event} {due : List Packet}

/-- Nothing comes in or is written after DISCONNECT. -/
theorem silent_of_parted (h : parted.run? life = some debt) (hopen : .closed ∉ life) :
    Log.answers life = [] ∧ Log.answersDue life = [] := by
  induction life with
  | nil => exact ⟨rfl, rfl⟩
  | cons e life ih =>
      rw [List.mem_cons, not_or] at hopen
      cases e with
      | closed => exact absurd rfl hopen.1
      | opened | received | wrote => cases h
      | _ => exact ih h hopen.2

/-- What is due after an event is what was due before, with the answer to what came in and
without what was written. DISCONNECT is handed over when nothing is due. -/
theorem next?_owing {e : Event} (h : (owing due).next? e = some debt) (hopen : e ≠ .closed) :
    (∃ left, debt = .owing left ∧ due ++ Log.answersDue [e] = Log.answers [e] ++ left ∧
      ∀ failure, e ≠ .wrote .disconnect failure) ∨
    (debt = .parted ∧ due = [] ∧ Log.answers [e] = [] ∧ Log.answersDue [e] = []) := by
  cases e with
  | closed => exact absurd rfl hopen
  | opened => cases h
  | received p =>
      refine .inl ⟨_, (Option.some.inj h).symm, ?_, by simp⟩
      cases hp : p.answer? <;> simp [Log.answers, Log.answersDue, hp]
  | wrote p failure =>
      replace h : settle due p failure = some debt := h
      unfold settle at h
      -- A write settles the debt only if nothing is due (DISCONNECT), or if it is what is due
      -- first.
      split at h
      · next hdisconnect =>
          subst hdisconnect
          split at h
          · next hnone =>
              refine .inr ⟨(Option.some.inj h).symm, hnone, ?_, rfl⟩
              cases failure <;> rfl
          · cases h
      · next hdisconnect =>
          have hparting : ∀ failure', Event.wrote p failure ≠ .wrote .disconnect failure' :=
            fun failure' heq => hdisconnect (Event.wrote.inj heq).1
          split at h
          · next hanswer =>
              obtain ⟨rfl, hanswer⟩ := hanswer
              split at h
              · next hfirst =>
                  obtain ⟨left, rfl⟩ := List.head?_eq_some_iff.mp hfirst
                  refine .inl ⟨left, (Option.some.inj h).symm, ?_, hparting⟩
                  simp [Log.answers, Log.answersDue, hanswer]
              · cases h
          · next hanswer =>
              refine .inl ⟨due, (Option.some.inj h).symm, ?_, hparting⟩
              cases failure <;> simp_all [Log.answers, Log.answersDue]
  | _ => exact .inl ⟨due, (Option.some.inj h).symm, by simp [Log.answers, Log.answersDue], by simp⟩

/-- What was written and what is still due are the answers to all that came in. Nothing
is due when DISCONNECT was handed over. -/
theorem due_of_run? (h : (owing due).run? life = some debt) (hopen : .closed ∉ life) :
    ∃ left, due ++ Log.answersDue life = Log.answers life ++ left ∧
      ((∃ failure, .wrote .disconnect failure ∈ life) → left = []) := by
  induction life generalizing due with
  | nil => exact ⟨due, by simp [Log.answers, Log.answersDue], by simp⟩
  | cons e life ih =>
      rw [List.mem_cons, not_or] at hopen
      rw [run?_cons] at h
      obtain ⟨debt', hnext, hrest⟩ := Option.bind_eq_some_iff.mp h
      rw [show Log.answers (e :: life) = _ from Log.answers_append [e] life,
        show Log.answersDue (e :: life) = _ from Log.answersDue_append [e] life]
      rcases next?_owing hnext (Ne.symm hopen.1) with
        ⟨due', rfl, hdue, hparting⟩ | ⟨rfl, rfl, hwritten, hcame⟩
      -- The debt after the event is the one that the rest of the log starts with.
      · obtain ⟨left, heq, hleft⟩ := ih hrest hopen.2
        refine ⟨left, ?_, ?_⟩
        · rw [← List.append_assoc, hdue, List.append_assoc, heq, List.append_assoc]
        · rintro ⟨failure, hmem⟩
          exact hleft ⟨failure, (List.mem_cons.mp hmem).resolve_left (hparting failure).symm⟩
      · obtain ⟨hwritten', hcame'⟩ := silent_of_parted hrest hopen.2
        refine ⟨[], ?_, fun _ => rfl⟩
        rw [hwritten, hcame, hwritten', hcame']
        rfl

end Debt

/-! ### Answers in the queue -/

namespace Core

/-- The answers that wait in the queue. -/
def answersWaiting (core : Core) : List Packet :=
  core.pending.filter Packet.isAnswer

/-- Routing a packet queues the answer to it, whether it matches an exchange or not. -/
theorem route_answers {core : Core} (hwell : core.session.WellFormed) (p : Packet) :
    (core.route p).core.answersWaiting = core.answersWaiting ++ p.answer?.toList := by
  cases p with
  | publish m =>
      have hpending := (trackReceived_sent core (.publish m)).2
      simp only [route, routePublish, Packet.answer?]
      split <;> simp [answersWaiting, enqueue, Packet.isAnswer, *]
  | pubRec packetId =>
      -- PUBREL answers the server, but acknowledges nothing.
      rcases route_pubRec_cases hwell packetId with ⟨_, _, _, -, -, hpending, -⟩ | ⟨-, hroute⟩
      · rw [answersWaiting, hpending]
        simp [answersWaiting, Packet.isAnswer, Packet.answer?]
      · rw [hroute]
        simp [Packet.answer?]
  | pubRel packetId => simp [route, answersWaiting, enqueue, Packet.isAnswer, Packet.answer?]
  | _ => simp [route, answersWaiting, Packet.answer?]

/-- No answer to an earlier connection waits on a new one. -/
theorem resume_answers (core : Core) (hwell : core.session.WellFormed) (now : Nat) :
    (core.resume now).1.answersWaiting = [] := by
  have hrequests : (core.pending.filter Packet.isRequest).filter Packet.isAnswer = [] := by
    rw [List.filter_eq_nil_iff]
    intro p hp
    simp [Packet.isAnswer_of_isRequest (List.mem_filter.mp hp).2]
  cases hclean : core.settings.cleanSession with
  | true =>
      rw [resume_clean core now hclean]
      exact hrequests
  | false =>
      rw [resume_kept core now hclean, answersWaiting, List.filter_append, hrequests,
        List.append_nil, List.filter_eq_nil_iff]
      intro p hp
      -- A redelivery is a request or a PUBREL, and neither acknowledges anything.
      obtain ⟨e, he, rfl⟩ := List.mem_map.mp hp
      rcases redelivery_cases core.session (hwell.sent_awaits e he) with
        ⟨-, hawaits, -⟩ | ⟨hstays, -⟩
      · simp [Packet.isAnswer_of_isRequest (Packet.isRequest_of_awaitsAnswer hawaits)]
      · simp [Session.redelivery_of_staysTracked hstays, Packet.isAnswer]

end Core

/-! ### Beats -/

/-- What a connection owes where a client stands: the answers in the queue. -/
def Standing.Owes (core : Core) : Standing → Debt → Prop
  | .resting, debt => debt = .shut
  | .working _, debt | .parked, debt => debt = .owing core.answersWaiting
  | .ending, _ | .lost, _ => True

namespace Debt

variable {due : List Packet}

/-- A write that fails changes nothing, nor does one of another packet. -/
theorem run?_other {p : Packet} {failure : Option ClientError} (hparting : p ≠ .disconnect)
    (hother : failure.isSome = true ∨ p.isAnswer = false) :
    (owing due).run? [.wrote p failure] = some (.owing due) := by
  have hsettle : settle due p failure = some (.owing due) := by
    unfold settle
    rw [if_neg hparting, if_neg]
    rintro ⟨rfl, hp⟩
    simp [hp] at hother
  rw [run?_cons, show (owing due).next? (.wrote p failure) = _ from hsettle]
  rfl

/-- The first packet of a queue is due first, if it is an answer. -/
theorem next?_first {p : Packet} (back : List Packet) (hparting : p ≠ .disconnect) :
    (owing ((p :: back).filter Packet.isAnswer)).next? (.wrote p none)
      = some (.owing (back.filter Packet.isAnswer)) := by
  show settle _ p none = _
  unfold settle
  rw [if_neg hparting]
  cases hanswer : p.isAnswer <;> simp [hanswer]

/-- Other events of a turn change nothing. -/
theorem run?_untracked {events : List Event}
    (h : ∀ e ∈ events, ∃ reason p, e = .untracked p reason) :
    (owing due).run? events = some (.owing due) := by
  induction events with
  | nil => rfl
  | cons e events ih =>
      obtain ⟨reason, p, rfl⟩ := h e List.mem_cons_self
      exact ih fun e he => h e (List.mem_cons_of_mem _ he)

/-- A connection that is opened owes nothing. -/
theorem run?_opened (core : Core) :
    shut.run? (core.opened none) = some (.owing []) := by
  unfold Core.opened
  split <;> rfl

/-- The CONNECT answers nothing, and nothing has come in before it is answered. -/
theorem run?_greeting (core : Core) : shut.run? core.greeting = some (.owing []) := by
  rw [Core.greeting, run?_append, run?_opened]
  rfl

/-- An attempt that fails leaves no connection. -/
theorem run?_failedAttempt {core : Core} {opening : Option ClientError} {events : List Event}
    {failure : ClientError} (h : core.FailedAttempt opening events failure) :
    shut.run? events = some .shut := by
  cases h with
  | unopened =>
      unfold Core.opened
      split <;> rfl
  | unwritten =>
      rw [run?_append, run?_opened]
      rfl
  | refused =>
      rw [run?_append, run?_greeting]
      rfl

end Debt

namespace Client

/-- Every beat keeps to what is owed, if no write times out. -/
theorem Beat.owes {a : Action} {s s' : Standing} {core core' : Core} {events : List Event}
    {debt : Debt} (h : Beat a s core events s' core') (hwell : core.session.WellFormed)
    (hinner : ∀ p ∈ core.pending, p.isInner = true) (hprompt : s.Prompt core)
    (htimely : Log.Timely events) (howes : s.Owes core debt) :
    ∃ debt', debt.run? events = some debt' ∧ s'.Owes core' debt' := by
  -- Where nothing happens to the queue, nothing changes.
  have hstay : ∀ {core₁ : Core}, core₁.pending = core.pending → s.Owes core₁ debt := by
    intro core₁ hpending
    cases s with
    | working | parked =>
        exact howes.trans (by rw [Core.answersWaiting, Core.answersWaiting, hpending])
    | _ => exact howes
  have hparting : ∀ {front back : List Packet} {p : Packet}, core.pending = front ++ p :: back →
      p ≠ .disconnect := by
    rintro front back p hpending rfl
    cases hinner .disconnect (by rw [hpending]; simp)
  cases h with
  | quiet hbooks => exact ⟨debt, rfl, hstay (congrArg Core.Books.pending hbooks)⟩
  | ask _ r hlost =>
      refine ⟨debt, ?_, hstay rfl⟩
      cases debt <;> rfl
  | wake | park => exact ⟨debt, rfl, howes⟩
  | stop => exact ⟨debt, rfl, trivial⟩
  | @queue _ tried _ r inbox hinbox =>
      obtain ⟨p, ids, haccept, hrequest, -⟩ := Core.accept_cases { core with inbox } r
      obtain rfl : debt = _ := howes
      rw [haccept]
      refine ⟨_, rfl, ?_⟩
      show Debt.owing _ = Debt.owing _
      simp [Core.answersWaiting, Packet.isAnswer_of_isRequest hrequest]
  | @write _ _ front back p hpending =>
      obtain rfl : front = [] := List.eq_nil_of_length_eq_zero hprompt
      obtain rfl : debt = _ := howes
      refine ⟨.owing (back.filter Packet.isAnswer), ?_, ?_⟩
      · rw [Core.answersWaiting, hpending, List.nil_append, Debt.run?_cons,
          Debt.next?_first back (hparting hpending)]
        exact Debt.run?_untracked fun e he =>
          (Core.eq_untracked_of_noteWritten he).imp fun reason heq => ⟨p, heq⟩
      · rw [Standing.Owes, Core.answersWaiting, (Core.noteWritten_frame _ p).2]
        rfl
  | miss _ _ htimeout => cases htimeout.symm.trans (htimely _ List.mem_cons_self)
  | fail hpending =>
      obtain rfl : debt = _ := howes
      exact ⟨_, Debt.run?_other (hparting hpending) (.inl rfl), trivial⟩
  | route _ p handler hs =>
      obtain rfl : debt = _ := howes
      refine ⟨.owing (core.answersWaiting ++ p.answer?.toList), ?_, ?_⟩
      · rw [Core.route_events hwell p]
        cases (core.route p).notice <;> rfl
      · rcases hs with rfl | rfl
        · exact congrArg Debt.owing (Core.route_answers hwell p).symm
        · trivial
  | ping hbooks =>
      obtain rfl : debt = _ := howes
      exact ⟨_, Debt.run?_other (by simp) (.inr rfl), hstay (congrArg Core.Books.pending hbooks)⟩
  | pingFail =>
      obtain rfl : debt = _ := howes
      exact ⟨_, Debt.run?_other (by simp) (.inl rfl), trivial⟩
  | leave =>
      obtain rfl : debt = _ := howes
      have hempty : core.pending = [] := List.eq_nil_of_length_eq_zero hprompt
      refine ⟨.parted, ?_, trivial⟩
      rw [Core.answersWaiting, hempty]
      rfl
  | finish hbooks hn hs =>
      refine ⟨.shut, by cases debt <;> rfl, ?_⟩
      rcases hs with rfl | rfl
      · rfl
      · trivial
  | attempt link hfailed =>
      obtain rfl : debt = .shut := howes
      exact ⟨.shut, Debt.run?_failedAttempt hfailed, rfl⟩
  | connect _ link now =>
      obtain rfl : debt = .shut := howes
      obtain ⟨forgotten, hresume⟩ := Core.resume_events { core with link } now
      refine ⟨.owing [], ?_, ?_⟩
      · rw [Debt.run?_append, Debt.run?_greeting, hresume]
        rfl
      · exact congrArg Debt.owing (Core.resume_answers { core with link } hwell now).symm

/-- So does every chain of beats. -/
theorem Beats.owes {P : Action → Prop} {s : Standing} {start core : Core} {log : List Event}
    (h : Beats P .resting start log s core) (hwell : start.session.WellFormed)
    (hempty : start.pending = []) (htimely : Log.Timely log) :
    ∃ debt, Debt.shut.run? log = some debt ∧ s.Owes core debt := by
  induction h with
  | refl => exact ⟨.shut, rfl, rfl⟩
  | snoc hbeats _ hbeat ih =>
      obtain ⟨hbefore, hevents⟩ := Log.timely_append_iff.mp htimely
      obtain ⟨debt, hrun, howes⟩ := ih hbefore
      obtain ⟨debt', hrun', howes'⟩ := hbeat.owes (Core.wellFormed_moves hwell hbeats.moves)
        (Core.inner_moves hwell hbeats.moves (by simp [hempty])) (hbeats.prompt hbefore) hevents
        howes
      refine ⟨debt', ?_, howes'⟩
      rw [Debt.run?_append, hrun]
      exact hrun'

/-- A loop that sees that it is to part hands DISCONNECT to the transport, unless a write
of its queue fails for good. -/
theorem disconnect_of_served {c : Client} {core : Core} (hsignal : c.signalled? = some core)
    (hserved : core.serve.2.2 = none) :
    .wrote .disconnect (core.serve.1.write .disconnect).1 ∈ (c.disconnect true).2.1 := by
  rw [((c.parted true).of_signalled? hsignal).1]
  rcases core.part_cases with ⟨failure, hfailed, -⟩ | ⟨-, hpart⟩
  · cases hserved.symm.trans hfailed
  · simp [finish, conclude, hpart]

/-- The server is answered in order, if no write times out. The hypothesis on the session
holds of an empty one, and of every session that a client leaves.

* At every moment of a connection, the answers that were written on it are the first
  ones of those that are due for the packets that came in on it.
* They are all, if DISCONNECT was handed to the transport. This is what a graceful
  disconnect does that can write its queue.
* No answer waits when a connection is made. So what is written on it was queued on it. -/
theorem answers_in_order (settings : Settings) {s : Session} (link : Link) (as : List Action)
    (hs : s.WellFormed) (htimely : Log.Timely ((new settings s link).run as).2) :
    (∀ before host port after,
      ((new settings s link).run as).2 = before ++ .opened host port none :: after →
      (∀ life, life <+: after.takeWhile (· ≠ .closed) →
        Log.answers life <+: Log.answersDue life) ∧
      ((∃ failure, .wrote .disconnect failure ∈ after.takeWhile (· ≠ .closed)) →
        Log.answers (after.takeWhile (· ≠ .closed))
          = Log.answersDue (after.takeWhile (· ≠ .closed)))) ∧
    (∀ core, ((new settings s link).run as).1.signalled? = some core → core.serve.2.2 = none →
      ∃ failure, .wrote .disconnect failure
        ∈ (((new settings s link).run as).1.step (.disconnect true)).2.1) ∧
    (∀ core opening, ((new settings s link).run as).1.loop.core? = some core →
      ((new settings s link).run as).1.establishes (.connect opening) = true →
      ∃ core', (((new settings s link).run as).1.connect opening).1.loop = .running .top core' ∧
        ∀ p ∈ core'.pending, p.isAnswer = false) := by
  have hstart : (new settings s link).At .resting (Core.new settings s link 0) :=
    .resting (Or.inl rfl)
  obtain ⟨standing, core, hbeats, hat⟩ := beats_run as hstart
  have hwell := Core.wellFormed_moves hs hbeats.moves
  refine ⟨?_, ?_, ?_⟩
  · intro before host port after hlog
    obtain ⟨debt, hrun, -⟩ := hbeats.owes hs rfl htimely
    rw [hlog] at hrun
    -- What is owed after a part of the connection's life.
    have hpart : ∀ life, life <+: after.takeWhile (· ≠ .closed) →
        ∃ left, Log.answersDue life = Log.answers life ++ left ∧
          ((∃ failure, .wrote .disconnect failure ∈ life) → left = []) := by
      intro life hlife
      obtain ⟨rest, hrest⟩ := hlife.trans (List.takeWhile_prefix _)
      have hafter := Debt.run?_of_opened hrun
      rw [← hrest, Debt.run?_append] at hafter
      obtain ⟨debt', hdebt, -⟩ := Option.bind_eq_some_iff.mp hafter
      have hopen : .closed ∉ life := fun hmem => by
        simpa using List.mem_takeWhile_imp (hlife.subset hmem)
      simpa using Debt.due_of_run? hdebt hopen
    refine ⟨fun life hlife => ?_, fun hparting => ?_⟩
    · obtain ⟨left, hdue, -⟩ := hpart life hlife
      exact ⟨left, hdue.symm⟩
    · obtain ⟨left, hdue, hleft⟩ := hpart _ List.prefix_rfl
      rw [hdue, hleft hparting, List.append_nil]
  · exact fun core₁ hsignal hserved => ⟨_, disconnect_of_served hsignal hserved⟩
  · intro core₁ opening hcore hestablishes
    obtain rfl := hat.eq_core hcore
    obtain ⟨link', hloop⟩ := connect_establishes hcore hestablishes
    refine ⟨_, hloop, ?_⟩
    have hnone := Core.resume_answers { core₁ with link := link' } hwell
      ((new settings s link).run as).1.now
    simpa [Core.answersWaiting, List.filter_eq_nil_iff] using hnone

/-- The connection breaks before a message is answered. On the next one a message comes in
with its PUBREL, and the client disconnects. -/
def breakingRun : List Action :=
  [.expect [.ok (.connAck false .accepted),
      .ok (.publish ⟨"a", [1], .atLeastOnce, false, false, 1⟩)],
    .connect none, .turn, .turn, .outcomes [some .connectionClosed], .turn,
    .expect [.ok (.connAck false .accepted),
      .ok (.publish ⟨"b", [2], .exactlyOnce, false, false, 2⟩), .ok (.pubRel 2)],
    .connect none, .turn, .turn, .turn, .turn, .disconnect true]

/-- PUBACK is dropped, and the second connection answers what came in on it. -/
theorem answers_in_order_breakingRun :
    ∃ before after, ((new default .empty default).run breakingRun).2
        = before ++ .opened "" 0 none :: after ∧
      Log.answersDue before = [.pubAck 1] ∧ Log.answers before = [] ∧
      Log.answersDue (after.takeWhile (· ≠ .closed)) = [.pubRec 2, .pubComp 2] ∧
      Log.answers (after.takeWhile (· ≠ .closed)) = [.pubRec 2, .pubComp 2] := by
  have hlog : ((new default .empty default).run breakingRun).2
      = ((new default .empty default).run breakingRun).2.take 9
        ++ .opened "" 0 none :: ((new default .empty default).run breakingRun).2.drop 10 := by
    decide
  obtain ⟨-, hparted⟩ := (answers_in_order default default breakingRun Session.wellFormed_empty
    (by decide)).1 _ _ _ _ hlog
  have hdue : Log.answersDue ((((new default .empty default).run breakingRun).2.drop 10).takeWhile
      (· ≠ .closed)) = [.pubRec 2, .pubComp 2] := by
    decide
  exact ⟨_, _, hlog, by decide, by decide, hdue, (hparted ⟨none, by decide⟩).trans hdue⟩

end Client

end Mqtt
