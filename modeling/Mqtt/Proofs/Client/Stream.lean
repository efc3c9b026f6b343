import Mqtt.Proofs.Client.Roll
import Mqtt.Proofs.Client.Snapshot

/-!
# `Mqtt.Proofs.Client.Stream`: what is written on a connection

From its opening to its end a connection goes through stages (`Stage`). A stage
says which events may come next (`Stage.next?`): CONNECT first and nothing
before it is answered, then packets of the queue and PINGREQ, and nothing after
DISCONNECT or a write that failed for good.

* `Client.Beat.run?`: every beat keeps to the stages, and where a client stands
  says in which stage its connection is.
* `Log.orderly_of_run?`: what is written on a connection that keeps to them
  (`Log.Orderly`).
* `Client.streams_orderly`: what it says of runs, together with how often a
  request is written.
-/

set_option autoImplicit false

namespace Mqtt

/-- Whether a packet may be written between CONNECT and DISCONNECT. -/
def Packet.isInner : Packet → Bool
  | .publish _ | .subscribe _ | .unsubscribe _ | .pubAck _ | .pubRec _ | .pubRel _ | .pubComp _
  | .pingReq => true
  | _ => false

/-- Requests may be written on a connection. -/
theorem Packet.isInner_of_isRequest {p : Packet} (h : p.isRequest = true) : p.isInner = true := by
  cases p <;> first | rfl | cases h

/-- So may the answers to what comes in. -/
theorem Packet.isInner_of_replies {p q : Packet} (h : q ∈ p.replies) : q.isInner = true := by
  cases p <;> simp [replies] at h
  · rcases h with rfl | rfl <;> rfl
  · rw [h]; rfl
  · rw [h]; rfl

/-! ### What is queued -/

namespace Core

/-- What holds of requests and of answers stays true of every packet in the queue. -/
theorem pending_move {P : Packet → Prop} (hask : ∀ p : Packet, p.isRequest = true → P p)
    (hreply : ∀ p q : Packet, q ∈ p.replies → P q) {connecting : Bool} {core core' : Core}
    {events : List Event} (hwell : core.session.WellFormed)
    (hmove : Move connecting core events core') (h : ∀ p ∈ core.pending, P p) :
    ∀ p ∈ core'.pending, P p := by
  -- What is written leaves the queue.
  have hcut : ∀ {front back : List Packet} {p : Packet}, core.pending = front ++ p :: back →
      ∀ q ∈ front ++ back, P q :=
    fun hpending q hq => h q ((sublist_cut hpending).subset hq)
  cases hmove.effect hwell with
  | aside hbooks haside =>
      rw [show core'.pending = core.pending from congrArg Books.pending hbooks]
      exact h
  | ask _ r => exact h
  | @queue _ _ r inbox p ids hinbox hrequest hfresh hid =>
      refine List.forall_mem_append.mpr ⟨h, List.forall_mem_singleton.mpr (hask p ?_)⟩
      cases p <;> first | rfl | cases hrequest
  | track hpending => exact hcut hpending
  | drop hpending => exact hcut hpending
  | refuse hpending => exact hcut hpending
  | route p handler hrouting =>
      obtain ⟨answer, hpending, hanswer⟩ := core.route_replies p
      rw [hpending]
      refine List.forall_mem_append.mpr ⟨h, fun q hq => ?_⟩
      exact hreply p q (hanswer q (Option.mem_toList.mp hq)).1
  | forget now => exact fun p hp => h p (List.mem_filter.mp hp).1
  | redeliver now =>
      refine List.forall_mem_append.mpr ⟨?_, fun p hp => h p (List.mem_filter.mp hp).1⟩
      intro p hp
      obtain ⟨e, he, rfl⟩ := List.mem_map.mp hp
      rcases redelivery_cases core.session (hwell.sent_awaits e he) with
        ⟨-, hawaits, -⟩ | ⟨hstays, -⟩
      · exact hask _ (Packet.isRequest_of_awaitsAnswer hawaits)
      · rw [Session.redelivery_of_staysTracked hstays]
        exact hreply (.pubRec e.key.packetId) _ List.mem_cons_self

/-- So it does along a chain of moves. -/
theorem pending_moves {P : Packet → Prop} (hask : ∀ p : Packet, p.isRequest = true → P p)
    (hreply : ∀ p q : Packet, q ∈ p.replies → P q) {connecting : Bool} {start core : Core}
    {log : List Event} (hwell : start.session.WellFormed)
    (hmoves : Moves connecting start log core) (h : ∀ p ∈ start.pending, P p) :
    ∀ p ∈ core.pending, P p := by
  induction hmoves with
  | refl => exact h
  | snoc hmoves hmove ih => exact pending_move hask hreply (wellFormed_moves hwell hmoves) hmove ih

/-- What is queued may be written on a connection. -/
theorem inner_moves {connecting : Bool} {start core : Core} {log : List Event}
    (hwell : start.session.WellFormed) (hmoves : Moves connecting start log core)
    (h : ∀ p ∈ start.pending, p.isInner = true) : ∀ p ∈ core.pending, p.isInner = true :=
  pending_moves (fun _ => Packet.isInner_of_isRequest) (fun _ _ => Packet.isInner_of_replies)
    hwell hmoves h

end Core

/-! ### The stages of a connection -/

/-- Where a connection is. -/
inductive Stage where
  /-- There is none. -/
  | shut
  /-- It is open, and nothing was handed to the transport. -/
  | bare
  /-- CONNECT was written. -/
  | greeted
  /-- CONNECT was answered. -/
  | up
  /-- Nothing more may be written. -/
  | spent
  deriving DecidableEq

namespace Stage

/-- The stage after a packet was handed to the transport of a connection that is up. -/
def afterWrite (p : Packet) (failure : Option ClientError) : Option Stage :=
  if p.isInner then some (if failure.all ClientError.isTimeout then .up else .spent)
  else if p = .disconnect then some .spent
  else none

/-- The stage after an event, if the event may come in a stage. -/
def next? : Stage → Event → Option Stage
  | .shut, .opened _ _ none => some .bare
  | .shut, .wrote .. | .shut, .established _ => none
  | .shut, _ => some .shut
  | .bare, .wrote (.connect _) none => some .greeted
  | .bare, .wrote (.connect _) (some _) => some .spent
  | .bare, _ => none
  | .greeted, .awaitedAnswer _ => some .greeted
  | .greeted, .established _ => some .up
  | .greeted, .closed => some .shut
  | .greeted, _ => none
  | .up, .wrote p failure => afterWrite p failure
  | .up, .closed => some .shut
  | .up, .opened .. | .up, .established _ => none
  | .up, _ => some .up
  | .spent, .closed => some .shut
  | .spent, .wrote .. | .spent, .opened .. | .spent, .established _ => none
  | .spent, _ => some .spent

/-- The stage after a log, if its events may come one after the other. -/
def run? (stage : Stage) (log : List Event) : Option Stage :=
  log.foldlM next? stage

/-- Logs in a row take a connection from stage to stage. -/
theorem run?_append (stage : Stage) (log later : List Event) :
    stage.run? (log ++ later) = (stage.run? log).bind (·.run? later) :=
  List.foldlM_append

/-- The first event has to be allowed before the others are looked at. -/
theorem run?_cons (stage : Stage) (e : Event) (log : List Event) :
    stage.run? (e :: log) = (stage.next? e).bind (·.run? log) :=
  rfl

/-- A log that keeps to the stages does so up to every event, and from then on. -/
theorem run?_split {stage last : Stage} {before after : List Event} {e : Event}
    (h : stage.run? (before ++ e :: after) = some last) :
    ∃ st st', stage.run? before = some st ∧ st.next? e = some st' ∧ st'.run? after = some last := by
  rw [run?_append] at h
  obtain ⟨st, hbefore, hrest⟩ := Option.bind_eq_some_iff.mp h
  rw [run?_cons] at hrest
  obtain ⟨st', hnext, hafter⟩ := Option.bind_eq_some_iff.mp hrest
  exact ⟨st, st', hbefore, hnext, hafter⟩

end Stage

/-- The stages that a connection can be in, by where the client stands. -/
def Standing.Allows : Standing → Stage → Prop
  | .resting, stage => stage = .shut
  | .working _, stage | .parked, stage => stage = .up
  | .ending, stage => stage = .up ∨ stage = .spent
  | .lost, stage => stage = .shut ∨ stage = .up

/-- Between two beats something was handed to the transport of every connection. -/
theorem Standing.Allows.ne_bare {s : Standing} {stage : Stage} (h : s.Allows stage) :
    stage ≠ .bare := by
  rintro rfl
  cases s with
  | ending | lost => rcases h with h | h <;> cases h
  | _ => cases h

namespace Core

/-- A transport that is opened is bare: nothing was handed to it yet. -/
theorem run?_opened (core : Core) (opening : Option ClientError) :
    Stage.shut.run? (core.opened opening)
      = some (if opening.isSome then .shut else .bare) := by
  unfold opened
  cases opening <;> split <;> rfl

/-- CONNECT is what is written first. -/
theorem run?_greeting (core : Core) : Stage.shut.run? core.greeting = some .greeted := by
  rw [greeting, Stage.run?_append, run?_opened]
  rfl

/-- An attempt that fails leaves the transport closed. -/
theorem FailedAttempt.run? {core : Core} {opening : Option ClientError} {events : List Event}
    {failure : ClientError} (h : core.FailedAttempt opening events failure) :
    Stage.shut.run? events = some .shut := by
  cases h with
  | unopened => exact run?_opened core _
  | unwritten =>
      rw [Stage.run?_append, run?_opened]
      rfl
  | refused =>
      rw [Stage.run?_append, run?_greeting]
      rfl

end Core

namespace Client

/-- Every beat keeps to the stages. -/
theorem Beat.run? {a : Action} {s s' : Standing} {core core' : Core} {events : List Event}
    {stage : Stage} (h : Beat a s core events s' core') (hwell : core.session.WellFormed)
    (hinner : ∀ p ∈ core.pending, p.isInner = true) (hs : s.Allows stage) :
    ∃ stage', stage.run? events = some stage' ∧ s'.Allows stage' := by
  -- A packet of the queue, or a PINGREQ, leaves the connection up or spends it.
  have hup : ∀ (p : Packet) (failure : Option ClientError), p.isInner = true →
      failure.all ClientError.isTimeout = true → Stage.up.next? (.wrote p failure) = some .up := by
    intro p failure hp htimeout
    show Stage.afterWrite p failure = _
    rw [Stage.afterWrite, if_pos hp, if_pos htimeout]
  have hspent : ∀ (p : Packet) (failure : ClientError), p.isInner = true →
      failure.isTimeout = false → Stage.up.next? (.wrote p (some failure)) = some .spent := by
    intro p failure hp htimeout
    show Stage.afterWrite p (some failure) = _
    rw [Stage.afterWrite, if_pos hp, if_neg]
    rw [Option.all_some, htimeout]
    exact Bool.false_ne_true
  cases h with
  | quiet => exact ⟨stage, rfl, hs⟩
  -- A request can be made at any stage, and means nothing to it.
  | ask _ r hlost =>
      refine ⟨stage, ?_, hs⟩
      cases s with
      | resting | working | parked =>
          obtain rfl : stage = _ := hs
          rfl
      | ending => rcases hs with rfl | rfl <;> rfl
      | lost => exact absurd rfl hlost
  | wake | park => exact ⟨stage, rfl, hs⟩
  | stop _ hstands =>
      refine ⟨stage, rfl, Or.inl ?_⟩
      rcases hstands with rfl | ⟨tried, rfl⟩ <;> exact hs
  | queue hinbox =>
      obtain rfl : stage = .up := hs
      exact ⟨.up, rfl, rfl⟩
  -- A packet comes from the queue, which holds none but what may be written here.
  | @write _ _ front back p hpending =>
      obtain rfl : stage = .up := hs
      have hp : p.isInner = true := hinner p (hpending ▸ by simp)
      refine ⟨.up, ?_, rfl⟩
      rw [Stage.run?_cons, hup p none hp rfl]
      rcases Core.noteWritten_cases { core with pending := front ++ back } p with
        ⟨-, key, -, -, hnote⟩ | ⟨-, hnote⟩ | ⟨-, -, reason, hnote⟩ <;> rw [hnote] <;> rfl
  | @miss _ _ _ front back p failure hpending hbooks htimeout =>
      obtain rfl : stage = .up := hs
      refine ⟨.up, ?_, rfl⟩
      rw [Stage.run?_cons, hup p (some failure) (hinner p (hpending ▸ by simp)) htimeout]
      rfl
  | @fail _ _ _ front back p failure hpending hbooks htimeout =>
      obtain rfl : stage = .up := hs
      refine ⟨.spent, ?_, Or.inr rfl⟩
      rw [Stage.run?_cons, hspent p failure (hinner p (hpending ▸ by simp)) htimeout]
      rfl
  -- What comes in is not written, and routing it writes nothing.
  | route _ p handler hstands =>
      obtain rfl : stage = .up := hs
      refine ⟨.up, ?_, by rcases hstands with rfl | rfl <;> first | rfl | exact Or.inr rfl⟩
      rw [Core.route_events hwell p]
      cases (core.route p).notice <;> rfl
  | @ping _ _ _ _ failure hbooks htimeout =>
      obtain rfl : stage = .up := hs
      refine ⟨.up, ?_, rfl⟩
      have hall : failure.all ClientError.isTimeout = true := by
        cases failure with
        | none => rfl
        | some reason => exact htimeout reason rfl
      rw [Stage.run?_cons, hup .pingReq failure rfl hall]
      rfl
  | @pingFail _ _ _ _ failure hbooks htimeout =>
      obtain rfl : stage = .up := hs
      refine ⟨.spent, ?_, Or.inr rfl⟩
      rw [Stage.run?_cons, hspent .pingReq failure rfl htimeout]
      rfl
  -- DISCONNECT is the last that is written, whether it goes through or not.
  | leave =>
      obtain rfl : stage = .up := hs
      exact ⟨.spent, rfl, Or.inr rfl⟩
  | finish hbooks hn hstands =>
      refine ⟨.shut, ?_, by rcases hstands with rfl | rfl <;> first | rfl | exact Or.inl rfl⟩
      rcases hs with rfl | rfl <;> rfl
  | attempt link hfailed =>
      obtain rfl : stage = .shut := hs
      exact ⟨.shut, hfailed.run?, rfl⟩
  -- The greeting ends with the CONNECT that the server accepts. Resuming only queues.
  | connect _ link now =>
      obtain rfl : stage = .shut := hs
      refine ⟨.up, ?_, rfl⟩
      obtain ⟨forgotten, hresume⟩ := Core.resume_events { core with link } now
      rw [Stage.run?_append, Core.run?_greeting, hresume]
      rfl

/-- So does every chain of beats. -/
theorem Beats.run? {P : Action → Prop} {s : Standing} {start core : Core} {log : List Event}
    (h : Beats P .resting start log s core) (hwell : start.session.WellFormed)
    (hempty : start.pending = []) :
    ∃ stage, Stage.shut.run? log = some stage ∧ s.Allows stage := by
  induction h with
  | refl => exact ⟨.shut, rfl, rfl⟩
  | snoc hbeats _ hbeat ih =>
      obtain ⟨stage, hrun, hallows⟩ := ih
      obtain ⟨stage', hrun', hallows'⟩ := hbeat.run? (Core.wellFormed_moves hwell hbeats.moves)
        (Core.inner_moves hwell hbeats.moves (by simp [hempty])) hallows
      refine ⟨stage', ?_, hallows'⟩
      rw [Stage.run?_append, hrun]
      exact hrun'

end Client

/-! ### What is written on a connection -/

namespace Log

/-- Whether nothing follows a write that failed for good. -/
def EndsInFailure (log : List Event) : Prop :=
  ∀ before p error after, log = before ++ .wrote p (some error) :: after →
    error.isTimeout = false → handed after = []

/-- A first event that is a failed write is followed by no write. -/
theorem endsInFailure_cons_iff {e : Event} {log : List Event} :
    EndsInFailure (e :: log) ↔
      (∀ p error, e = .wrote p (some error) → error.isTimeout = false → handed log = []) ∧
      EndsInFailure log := by
  constructor
  · intro h
    refine ⟨?_, ?_⟩
    · rintro p error rfl herror
      exact h [] p error log rfl herror
    · rintro before p error after rfl herror
      exact h (e :: before) p error after rfl herror
  · rintro ⟨hfirst, hrest⟩ before p error after hlog herror
    cases before with
    | nil =>
        obtain ⟨rfl, rfl⟩ := List.cons.inj hlog
        exact hfirst p error rfl herror
    | cons x before => exact hrest before p error after (List.cons.inj hlog).2 herror

/-- What follows on a connection after CONNECT was handed to the transport, which
ended in `failure`. -/
structure Orderly (failure : Option ClientError) (rest : List Event) : Prop where
  /-- Nothing follows a CONNECT that could not be written. -/
  unwritten : failure ≠ none → handed rest = []
  /-- Nothing follows until the connection is accepted. -/
  unanswered : (∀ forgotten, .established forgotten ∉ rest) → handed rest = []
  /-- DISCONNECT is the last packet. -/
  stream : ∃ inner parting, transmitted rest = inner ++ parting ∧
    (∀ p ∈ inner, p.isInner = true) ∧ (parting = [] ∨ parting = [.disconnect])
  ends : EndsInFailure rest

/-- Nothing follows at all. -/
theorem Orderly.of_handed {failure : Option ClientError} {rest : List Event}
    (h : handed rest = []) : Orderly failure rest where
  unwritten := fun _ => h
  unanswered := fun _ => h
  stream := ⟨[], [], transmitted_eq_nil h, by simp, Or.inl rfl⟩
  ends := by
    rintro before p error after rfl -
    rw [handed_append, List.append_eq_nil_iff, handed_wrote] at h
    cases h.2

/-- Events that write nothing come before. -/
theorem Orderly.cons {rest : List Event} {e : Event} (h : Orderly none rest)
    (hwrote : e.wrote? = none) : Orderly none (e :: rest) := by
  have hnot : ∀ p failure, e ≠ .wrote p failure := by
    rintro p failure rfl
    cases hwrote
  constructor
  · exact fun hfailure => absurd rfl hfailure
  · intro hnone
    rw [show handed (e :: rest) = handed rest from List.filterMap_cons_none hwrote]
    exact h.unanswered fun forgotten hmem => hnone forgotten (List.mem_cons_of_mem e hmem)
  · have htransmitted : transmitted (e :: rest) = transmitted rest := by
      cases e <;> first | rfl | cases hwrote
    rw [htransmitted]
    exact h.stream
  · exact endsInFailure_cons_iff.mpr ⟨fun p error heq => absurd heq (hnot p _), h.ends⟩

end Log

namespace Stage

variable {life : List Event} {stage : Stage}

/-- Only an opening makes a connection. -/
theorem next?_shut {e : Event} (h : next? .shut e = some stage) :
    stage = .shut ∨ ∃ host port, e = .opened host port none := by
  cases e with
  | opened host port failure =>
      cases failure with
      | none => exact Or.inr ⟨host, port, rfl⟩
      | some reason => exact Or.inl (Option.some.inj h).symm
  | wrote | established => cases h
  | _ => exact Or.inl (Option.some.inj h).symm

/-- A connection that is closed is none. -/
theorem next?_closed {st : Stage} (h : st.next? .closed = some stage) : stage = .shut := by
  cases st <;> first | exact (Option.some.inj h).symm | cases h

/-- A connection is one that opened and did not close. -/
theorem exists_opened {log : List Event} (h : Stage.shut.run? log = some stage)
    (hshut : stage ≠ .shut) :
    ∃ before host port life, log = before ++ .opened host port none :: life ∧
      .closed ∉ life := by
  induction log using List.reverseRecOn generalizing stage with
  | nil => exact absurd (Option.some.inj h).symm hshut
  | append_singleton log e ih =>
      obtain ⟨st, st', hbefore, hnext, hlast⟩ := run?_split h
      obtain rfl := Option.some.inj hlast
      by_cases hst : st = .shut
      -- The last event opened the connection, which has only begun.
      · subst hst
        rcases next?_shut hnext with hst' | ⟨host, port, rfl⟩
        · exact absurd hst' hshut
        · exact ⟨log, host, port, [], rfl, List.not_mem_nil⟩
      -- The connection was there before, and the last event did not close it.
      · obtain ⟨before, host, port, life, rfl, hopen⟩ := ih hbefore hst
        refine ⟨before, host, port, life ++ [e], by simp, List.not_mem_append hopen ?_⟩
        intro hmem
        rw [← List.mem_singleton.mp hmem] at hnext
        exact hshut (next?_closed hnext)

/-- Nothing is handed to the transport of a connection that is spent. -/
theorem handed_of_spent (h : Stage.spent.run? life = some stage) (hopen : .closed ∉ life) :
    Log.handed life = [] := by
  induction life with
  | nil => rfl
  | cons e life ih =>
      rw [List.mem_cons, not_or] at hopen
      cases e with
      | closed => exact absurd rfl hopen.1
      | opened | wrote | established => cases h
      | _ => exact ih h hopen.2

/-- A connection stays up with packets of the queue that are written or whose write
times out; any other write is the last one. -/
theorem next?_up {e : Event} (h : next? .up e = some stage) (hopen : e ≠ .closed) :
    (stage = .up ∧ (∀ p ∈ Log.transmitted [e], p.isInner = true) ∧
      ∀ p error, e = .wrote p (some error) → error.isTimeout = true) ∨
    (stage = .spent ∧ (Log.transmitted [e] = [] ∨ Log.transmitted [e] = [.disconnect])) := by
  cases e with
  | closed => exact absurd rfl hopen
  | opened | established => cases h
  | wrote p failure =>
      -- The stage after a write depends on what was written, and on whether time ran out.
      replace h : afterWrite p failure = some stage := h
      unfold afterWrite at h
      split at h
      · next hinner =>
          obtain rfl := Option.some.inj h
          cases failure with
          | none => exact Or.inl ⟨rfl, by simpa [Log.transmitted] using hinner, by simp⟩
          | some error =>
              cases htimeout : error.isTimeout with
              | true => exact Or.inl ⟨by simp [htimeout], by simp [Log.transmitted],
                  fun _ _ heq => by cases heq; exact htimeout⟩
              | false => exact Or.inr ⟨by simp [htimeout], Or.inl rfl⟩
      · split at h
        · next hdisconnect =>
            obtain rfl := Option.some.inj h
            rw [hdisconnect]
            cases failure with
            | none => exact Or.inr ⟨rfl, Or.inr rfl⟩
            | some error => exact Or.inr ⟨rfl, Or.inl rfl⟩
        · cases h
  | _ => exact Or.inl ⟨(Option.some.inj h).symm, by simp [Log.transmitted], by simp⟩

/-- What follows on a connection that is up. -/
theorem orderly_of_up (h : Stage.up.run? life = some stage) (hopen : .closed ∉ life) :
    (∃ inner parting, Log.transmitted life = inner ++ parting ∧
      (∀ p ∈ inner, p.isInner = true) ∧ (parting = [] ∨ parting = [.disconnect])) ∧
    Log.EndsInFailure life := by
  induction life with
  | nil =>
      refine ⟨⟨[], [], rfl, by simp, Or.inl rfl⟩, ?_⟩
      intro before p error after hsplit
      cases before <;> cases hsplit
  | cons e life ih =>
      rw [List.mem_cons, not_or] at hopen
      rw [run?_cons] at h
      obtain ⟨st, hnext, hrest⟩ := Option.bind_eq_some_iff.mp h
      have happend : Log.transmitted ([e] ++ life)
          = Log.transmitted [e] ++ Log.transmitted life :=
        List.filterMap_append
      rw [← List.singleton_append, happend, List.singleton_append, Log.endsInFailure_cons_iff]
      rcases next?_up hnext (Ne.symm hopen.1) with ⟨rfl, hinner, htimeout⟩ | ⟨rfl, hparting⟩
      · obtain ⟨⟨inner, parting, htransmitted, hall, hend⟩, hends⟩ := ih hrest hopen.2
        refine ⟨⟨Log.transmitted [e] ++ inner, parting, ?_,
          List.forall_mem_append.mpr ⟨hinner, hall⟩, hend⟩, ?_, hends⟩
        · rw [htransmitted, List.append_assoc]
        · intro p error heq herror
          cases herror.symm.trans (htimeout p error heq)
      · -- The first write was the last one.
        have hnone := handed_of_spent hrest hopen.2
        have horderly : Log.Orderly none life := .of_handed hnone
        refine ⟨⟨[], Log.transmitted [e], ?_, by simp, hparting⟩, fun _ _ _ _ => hnone,
          horderly.ends⟩
        rw [Log.transmitted_eq_nil hnone, List.append_nil]
        rfl

/-- What follows after CONNECT was written. -/
theorem orderly_of_greeted (h : Stage.greeted.run? life = some stage) (hopen : .closed ∉ life) :
    Log.Orderly none life := by
  induction life with
  | nil => exact .of_handed rfl
  | cons e life ih =>
      rw [List.mem_cons, not_or] at hopen
      cases e with
      | closed => exact absurd rfl hopen.1
      -- The client waits for the answer, and it is accepted or the connection ends.
      | awaitedAnswer timeout => exact (ih h hopen.2).cons rfl
      | established forgotten =>
          obtain ⟨hstream, hends⟩ := orderly_of_up h hopen.2
          exact ⟨fun hfailure => absurd rfl hfailure,
            fun hnone => absurd List.mem_cons_self (hnone forgotten), hstream,
            Log.endsInFailure_cons_iff.mpr ⟨by simp, hends⟩⟩
      | _ => cases h

/-- A connection begins with CONNECT. -/
theorem orderly_of_bare (h : Stage.bare.run? life = some stage) (hsome : life ≠ [])
    (hopen : .closed ∉ life) :
    ∃ c failure rest, life = .wrote (.connect c) failure :: rest ∧ Log.Orderly failure rest := by
  cases life with
  | nil => exact absurd rfl hsome
  | cons e rest =>
      rw [List.mem_cons, not_or] at hopen
      cases e with
      | wrote p failure =>
          cases p with
          | connect c =>
              refine ⟨c, failure, rest, rfl, ?_⟩
              cases failure with
              | none => exact orderly_of_greeted h hopen.2
              | some reason => exact .of_handed (handed_of_spent h hopen.2)
          | _ => cases h
      | _ => cases h

end Stage

namespace Log

/-- What is written on every connection of a log that keeps to the stages. -/
theorem orderly_of_run? {log : List Event} {stage : Stage}
    (h : Stage.shut.run? log = some stage) (hstage : stage ≠ .bare) {before after : List Event}
    {host : String} {port : UInt16} (hlog : log = before ++ .opened host port none :: after) :
    ∃ c failure rest, after.takeWhile (· ≠ .closed) = .wrote (.connect c) failure :: rest ∧
      Orderly failure rest := by
  subst hlog
  obtain ⟨st, st', -, hnext, hafter⟩ := Stage.run?_split h
  obtain rfl : st' = .bare := by
    cases st <;> first | exact (Option.some.inj hnext).symm | cases hnext
  -- The connection has begun, so something was handed to the transport.
  have hsome : after.takeWhile (· ≠ .closed) ≠ [] := by
    cases after with
    | nil => exact absurd (Option.some.inj hafter).symm hstage
    | cons e after =>
        by_cases he : e = .closed
        · subst he
          cases hafter
        · rw [List.takeWhile_cons_of_pos (by simpa using he)]
          exact List.cons_ne_nil _ _
  rw [← List.takeWhile_append_dropWhile (p := (· ≠ .closed)) (l := after),
    Stage.run?_append] at hafter
  obtain ⟨last, hlife, -⟩ := Option.bind_eq_some_iff.mp hafter
  refine Stage.orderly_of_bare hlife hsome fun hmem => ?_
  simpa using List.mem_takeWhile_imp hmem

end Log

namespace Client

/-- DISCONNECT is handed to the transport by a graceful disconnect only. -/
theorem Beat.eq_disconnect {a : Action} {s s' : Standing} {core core' : Core}
    {events : List Event} (h : Beat a s core events s' core') (hwell : core.session.WellFormed)
    (hinner : ∀ p ∈ core.pending, p.isInner = true) {failure : Option ClientError}
    (hwrote : .wrote .disconnect failure ∈ events) : a = .disconnect true := by
  -- It does not wait in the queue.
  have hqueue : ∀ {front back : List Packet} {p : Packet}, core.pending = front ++ p :: back →
      .disconnect ≠ p := by
    rintro front back p hpending rfl
    cases hinner .disconnect (by rw [hpending]; simp)
  cases h with
  | leave => rfl
  | write hpending =>
      rcases List.mem_cons.mp hwrote with hwrote | hwrote
      · exact absurd (Event.wrote.inj hwrote).1 (hqueue hpending)
      · obtain ⟨reason, hwrote⟩ := Core.eq_untracked_of_noteWritten hwrote
        cases hwrote
  | miss hpending | fail hpending => simp [hqueue hpending] at hwrote
  | route _ p handler =>
      rw [Core.route_events hwell p] at hwrote
      simp at hwrote
  | attempt link hfailed =>
      cases hfailed <;> simp [Core.greeting, Core.opened, Settings.toConnect] at hwrote
  | connect _ link now =>
      obtain ⟨forgotten, hresume⟩ := Core.resume_events { core with link } now
      rw [hresume] at hwrote
      simp [Core.greeting, Core.opened, Settings.toConnect] at hwrote
  | @queue _ _ _ r inbox hinbox =>
      obtain ⟨p, ids, haccept, -⟩ := Core.accept_cases { core with inbox } r
      rw [haccept] at hwrote
      simp at hwrote
  | _ => simp at hwrote

/-- Only a client that is asked to disconnect, and gracefully, writes DISCONNECT. -/
theorem Beats.eq_disconnect {a : Action} {s s' : Standing} {core core' : Core}
    {log : List Event} (h : Beats (· = a) s core log s' core') (hwell : core.session.WellFormed)
    (hinner : ∀ p ∈ core.pending, p.isInner = true) {failure : Option ClientError}
    (hwrote : .wrote .disconnect failure ∈ log) : a = .disconnect true := by
  induction h with
  | refl => cases hwrote
  | snoc hbeats ha hbeat ih =>
      rcases List.mem_append.mp hwrote with hwrote | hwrote
      · exact ih hwrote
      · exact ha ▸ hbeat.eq_disconnect (Core.wellFormed_moves hwell hbeats.moves)
          (Core.inner_moves hwell hbeats.moves hinner) hwrote

/-- A read that fails for good ends the loop at once. -/
theorem turn_of_failed_read {c : Client} {core : Core} (hloop : c.loop = .running .parked core)
    (hinbox : core.inbox = []) {reason : ClientError} {incoming : List Arrival}
    (hincoming : core.link.incoming = .error reason :: incoming)
    (htimeout : reason.isTimeout = false) :
    c.turn.2 = [.closed, c.notification (.connectionLost reason)] := by
  simp [turn, hloop, wake, hinbox, hincoming, htimeout, finish, conclude]

/-- What is written on every connection of every run. The hypothesis on the session
holds of an empty one, and of every session that a client leaves.

* A connection starts with CONNECT, which is all if it fails or is not accepted;
  then come packets of the queue and PINGREQ, and at the end at most one DISCONNECT
  (`Log.Orderly`). Every write is on a connection.
* DISCONNECT is handed to the transport by a graceful disconnect only.
* After a write or a read that failed for good nothing follows on the connection.
* No request is written twice on one connection, and none at level 0 is written
  twice at all. The requests are told apart by numbers: first those that the
  session held, then the accepted ones in order. -/
theorem streams_orderly (settings : Settings) {s : Session} (link : Link) (as : List Action)
    (hs : s.WellFormed) :
    (∀ before host port after,
      ((new settings s link).run as).2 = before ++ .opened host port none :: after →
      ∃ c failure rest, after.takeWhile (· ≠ .closed) = .wrote (.connect c) failure :: rest ∧
        Log.Orderly failure rest) ∧
    (∀ before p failure after,
      ((new settings s link).run as).2 = before ++ .wrote p failure :: after →
      ∃ earlier host port life, before = earlier ++ .opened host port none :: life ∧
        .closed ∉ life) ∧
    (∀ done a later, as = done ++ a :: later → ∀ failure,
      .wrote .disconnect failure ∈ (((new settings s link).run done).1.step a).2.1 →
      a = .disconnect true) ∧
    (∀ done later core reason incoming, as = done ++ .turn :: later →
      ((new settings s link).run done).1.loop = .running .parked core → core.inbox = [] →
      core.link.incoming = .error reason :: incoming → reason.isTimeout = false →
      ∃ handler, (((new settings s link).run done).1.step .turn).2.1
        = [.closed, .notified (.connectionLost reason) handler]) ∧
    ((Log.queued ((new settings s link).run as).2).map Packet.request?
      <+: (Log.accepted ((new settings s link).run as).2).map (some ·.bare)) ∧
    ∃ attributed : List (Event × Nat),
      attributed.map Prod.fst = ((new settings s link).run as).2 ∧
      ∀ before p n after, attributed = before ++ (.wrote p none, n) :: after →
        p.isRequest = true →
        Log.AskedAs (Core.new settings s link 0) before p n ∧ n ∉ Log.current before ∧
        ∀ m, p = .publish m → m.qos = .atMostOnce → n ∉ Log.numbers before := by
  have hstart : (new settings s link).At .resting (Core.new settings s link 0) :=
    .resting (Or.inl rfl)
  obtain ⟨standing, core, hbeats, hat⟩ := beats_run as hstart
  obtain ⟨stage, hrun, hallows⟩ := hbeats.run? hs rfl
  refine ⟨?_, ?_, ?_, ?_, ?_, ?_⟩
  -- The order on every connection is read off the stages.
  · exact fun before host port after hlog => Log.orderly_of_run? hrun hallows.ne_bare hlog
  -- A write while the transport is shut would have no stage to come in.
  · intro before p failure after hlog
    rw [hlog] at hrun
    obtain ⟨st, st', hbefore, hnext, -⟩ := Stage.run?_split hrun
    refine Stage.exists_opened hbefore ?_
    rintro rfl
    cases hnext
  -- The actions before are cut off, because only the last one has to be known.
  · rintro done a later rfl failure hwrote
    obtain ⟨standing₁, core₁, hbeats₁, hat₁⟩ := beats_run done hstart
    obtain ⟨standing₂, core₂, hbeats₂, -⟩ := beats_step (P := (· = a)) rfl hat₁
    exact hbeats₂.eq_disconnect (Core.wellFormed_moves hs hbeats₁.moves)
      (Core.inner_moves hs hbeats₁.moves (by simp [Core.new])) hwrote
  · intro done later core reason incoming _ hloop hinbox hincoming htimeout
    exact ⟨_, turn_of_failed_read hloop hinbox hincoming htimeout⟩
  · exact Core.queued_prefix_accepted hs rfl hbeats.moves
  -- The roll of the numbered requests tells which one a write is for.
  · obtain ⟨attributed, roll, hlog, hrolled⟩ := hbeats.rolled rfl hs
    refine ⟨attributed, hlog, ?_⟩
    intro before p n after hsplit hrequest
    obtain ⟨tried, core₀, roll₀, front, back, hrolled₀, hwaiting, -⟩ :=
      hrolled.before_write before p n after hsplit hrequest
    have hsound := hrolled₀.sound rfl hs
    have hmem : (p, n) ∈ roll₀.waiting := by
      rw [hwaiting]
      simp
    refine ⟨?_, hsound.apart _ hmem, ?_⟩
    · exact (hsound.asked _ (Roll.mem_entries_of_waiting hmem)).of_fresh p.fresh_fresh
    · rintro m rfl hqos hwritten
      have hawaits := hsound.again _ hmem hwritten
      exact of_decide_eq_true hawaits hqos

/-- CONNECT times out. On the next connection what is left of another client and a
message of level 0 are written, and the client disconnects. -/
def partingRun : List Action :=
  [.request (.publish ⟨"c", [2], .atMostOnce, false, false, 0⟩), .outcomes [some .timeout],
    .connect none, .expect [.ok (.connAck true .accepted)], .connect none, .disconnect true]

/-- DISCONNECT comes last on the second connection, after the subscription, the PUBREL
and the message. -/
theorem streams_orderly_partingRun :
    leftSession.WellFormed ∧ ∃ before after c rest,
      ((new default leftSession default).run partingRun).2
        = before ++ .opened "" 0 none :: after ∧
      after.takeWhile (· ≠ .closed) = .wrote (.connect c) none :: rest ∧
      Log.transmitted rest = [.subscribe ⟨2, "b", .atLeastOnce⟩, .pubRel 1,
        .publish ⟨"c", [2], .atMostOnce, false, false, 0⟩, .disconnect] ∧
      Log.Orderly none rest := by
  have hleft : Resumable leftSession :=
    .snapshot default default leavingRun .empty (Log.roomyAfter_of_length (by decide)) (by decide)
  have hwell : leftSession.WellFormed := (hleft.identified default default).wellFormed
  have hlog : ((new default leftSession default).run partingRun).2
      = ((new default leftSession default).run partingRun).2.take 4
        ++ .opened "" 0 none :: ((new default leftSession default).run partingRun).2.drop 5 := by
    decide
  obtain ⟨c, failure, rest, hlife, horderly⟩ :=
    (streams_orderly default default partingRun hwell).1 _ _ _ _ hlog
  have hfirst : ((((new default leftSession default).run partingRun).2.drop 5).takeWhile
      (· ≠ .closed)).head? = some (.wrote (Settings.toConnect default) none) := by
    decide
  have hpackets : Log.transmitted ((((new default leftSession default).run partingRun).2.drop
      5).takeWhile (· ≠ .closed)).tail
      = [.subscribe ⟨2, "b", .atLeastOnce⟩, .pubRel 1,
        .publish ⟨"c", [2], .atMostOnce, false, false, 0⟩, .disconnect] := by
    decide
  rw [hlife] at hfirst hpackets
  obtain rfl := (Event.wrote.inj (Option.some.inj hfirst)).2
  exact ⟨hwell, _, _, c, rest, hlog, hlife, hpackets, horderly⟩

end Client

end Mqtt
