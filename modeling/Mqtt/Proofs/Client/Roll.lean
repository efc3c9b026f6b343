import Mqtt.Proofs.Client.Attribution
import Mqtt.Proofs.Client.Beats
import Mqtt.Proofs.Client.Receipt
import Mqtt.Proofs.Client.Requeue

/-!
# `Mqtt.Proofs.Client.Roll`: requests by their numbers

A `Roll` holds the requests of a core with their numbers: those that wait, and
those that the session holds. It is kept up beat by beat (`Roll.Step`).

* `Rolled`: the attributed logs, and the rolls that they lead to. Every chain of
  beats has one (`Client.Beats.rolled`).
* `Rolled.sound`: the numbers are those of requests with these packets, no two
  requests have one number, and nothing waits that was written on the same
  connection (`Roll.Sound`).
* `Rolled.before_write`: a request that is written was one of those that wait.
-/

set_option autoImplicit false

namespace Mqtt

/-! ### What routing queues -/

/-- The packets that answer a packet. -/
def Packet.replies : Packet → List Packet
  | .publish m => [.pubAck m.packetId, .pubRec m.packetId]
  | .pubRec i => [.pubRel i]
  | .pubRel i => [.pubComp i]
  | _ => []

/-- Routing queues at most one answer to the packet, under the same identifier. -/
theorem Core.route_replies (core : Core) (p : Packet) : ∃ answer : Option Packet,
    (core.route p).core.pending = core.pending ++ answer.toList ∧
      ∀ q ∈ answer, q ∈ p.replies ∧ q.packetId? = p.packetId? := by
  have hnone : ∃ answer : Option Packet, core.pending = core.pending ++ answer.toList ∧
      ∀ q ∈ answer, q ∈ p.replies ∧ q.packetId? = p.packetId? :=
    ⟨none, (List.append_nil _).symm, by simp⟩
  cases p with
  | publish m =>
      simp only [route, routePublish]
      split
      · exact hnone
      · next hqos =>
          refine ⟨some (.pubAck m.packetId), rfl, ?_⟩
          simp [Packet.replies, Packet.packetId?, hqos]
      · next hqos =>
          refine ⟨some (.pubRec m.packetId), ?_, by simp [Packet.replies, Packet.packetId?, hqos]⟩
          exact congrArg (· ++ [Packet.pubRec m.packetId]) (trackReceived_sent core (.publish m)).2
  -- A PUBREC is answered only if it matches a message that was sent.
  | pubRec packetId =>
      simp only [route, routePubRec]
      split
      · exact hnone
      · next m session heq =>
          have hsent : ({ core with session }.trackSent (.publish m)).1.pending = core.pending := by
            unfold trackSent
            split <;> rfl
          refine ⟨some (.pubRel packetId), ?_, by simp [Packet.replies, Packet.packetId?]⟩
          exact congrArg (· ++ [Packet.pubRel packetId])
            ((trackReceived_sent _ (.pubRec packetId)).2.trans hsent)
  | pubRel packetId =>
      exact ⟨some (.pubComp packetId), rfl, by simp [Packet.replies, Packet.packetId?]⟩
  | _ => exact hnone

/-- A message that has its PUBREC stays in the session. -/
theorem Core.staysTracked_of_release {core : Core} (h : core.session.WellFormed) {i : UInt16}
    {front back : List Exchange} {e : Exchange} (hfound : core.session.sent = front ++ e :: back)
    (hkey : e.key = ⟨.publish, i⟩) :
    (core.route (.pubRec i)).core.session.staysTracked e = true := by
  have hmem : (⟨.publish, i⟩ : ExchangeKey) ∈ Exchange.keys core.session.sent :=
    hkey ▸ List.mem_map_of_mem (mem_cut hfound)
  obtain ⟨m, hm⟩ := Packet.eq_publish_of_kind (Exchange.kind_of_cut h.sent_keyed hfound hkey)
  rw [Session.staysTracked, hm]
  show (core.route (.pubRec i)).core.session.isReleased e.key.packetId = true
  rw [hkey]
  exact (isReleased_route h (.pubRec i) i).mpr (Or.inr ⟨rfl, hmem⟩)

/-! ### The roll of a core -/

/-- The requests of a core, each with its number. -/
structure Roll where
  /-- Those that wait to be written. -/
  waiting : List (Packet × Nat)
  /-- Those that the session holds. -/
  held : List (Exchange × Nat)
  /-- The number of the next request. -/
  next : Nat

namespace Roll

/-- The requests that a session holds come first. -/
def start (core : Core) : Roll :=
  ⟨[], core.session.sent.zipIdx, core.session.sent.length⟩

/-- All requests, with their packets as they were when they were queued. -/
def entries (roll : Roll) : List (Packet × Nat) :=
  roll.waiting.map (Prod.map Packet.fresh id)
    ++ roll.held.map (Prod.map (fun e => e.packet.fresh) id)

/-- Whether a roll has the requests of a core. -/
structure Of (roll : Roll) (core : Core) : Prop where
  waiting : roll.waiting.map Prod.fst = core.pending.filter Packet.isRequest
  held : roll.held.map Prod.fst = core.session.sent

/-- What happens to a roll when a client that stands somewhere goes from one core
to another, with the events that this leaves. -/
inductive Step (core core' : Core) : Standing → Roll → List (Event × Nat) → Roll → Prop where
  /-- Requests are completed or forgotten, or nothing happens to any. -/
  | settle {s : Standing} {roll : Roll} {added : List (Event × Nat)} {held : List (Exchange × Nat)}
      (hquiet : ∀ x ∈ added, x.1.concernsRequest = false) (hheld : held.Sublist roll.held) :
      Step core core' s roll added { roll with held }
  /-- A request is queued. -/
  | queue {tried : Nat} {roll : Roll} {p : Packet} (hfresh : p.fresh = p)
      (hmove : Core.Move true core [.queued p] core') :
      Step core core' (.working tried) roll [(.queued p, 0)]
        { roll with waiting := roll.waiting ++ [(p, roll.next)], next := roll.next + 1 }
  /-- A request is written, and held if it can be tracked. Those before it were tried. -/
  | write {tried : Nat} {roll : Roll} {front back : List (Packet × Nat)} {p : Packet} {n : Nat}
      {added : List (Event × Nat)} {new : List (Exchange × Nat)}
      (hwaiting : roll.waiting = front ++ (p, n) :: back) (hfront : front.length ≤ tried)
      (hrequest : p.isRequest = true) (hquiet : ∀ x ∈ added, x.1.concernsRequest = false)
      (hnew : new = [] ∨ ∃ key, new = [(⟨key, p⟩, n)]) :
      Step core core' (.working tried) roll ((.wrote p none, n) :: added)
        { roll with waiting := front ++ back, held := roll.held ++ new }
  /-- A message is released. -/
  | release {s : Standing} {roll : Roll} {added : List (Event × Nat)}
      {front back : List (Exchange × Nat)} {e : Exchange} {n : Nat}
      (hquiet : ∀ x ∈ added, x.1.concernsRequest = false)
      (hheld : roll.held = front ++ (e, n) :: back)
      (hstays : core'.session.staysTracked e = true) :
      Step core core' s roll added { roll with held := front ++ back ++ [(e, n)] }
  /-- What is not released waits again, on a new connection. -/
  | redeliver {s : Standing} {roll : Roll} {added : List (Event × Nat)}
      (hquiet : ∀ x ∈ added, x.1.concernsRequest = false)
      (hopens : ∃ x ∈ added, x.1.opens = true) :
      Step core core' s roll added
        { roll with
          waiting := (roll.held.filter fun x => !core.session.staysTracked x.1).map
            (Prod.map core.session.redelivery id) ++ roll.waiting
          held := roll.held.filter fun x => core.session.staysTracked x.1 }

variable {s s' : Standing} {core core' : Core} {roll : Roll}

/-- Where the queue is split, so are the requests that wait. -/
theorem Of.split (hof : roll.Of core) {front back : List Packet} {p : Packet}
    (hpending : core.pending = front ++ p :: back) (hrequest : p.isRequest = true) :
    ∃ front' n back', roll.waiting = front' ++ (p, n) :: back' ∧ front'.length ≤ front.length ∧
      (front' ++ back').map Prod.fst = (front ++ back).filter Packet.isRequest := by
  have hwaiting := hof.waiting
  rw [hpending, List.filter_append, List.filter_cons_of_pos hrequest] at hwaiting
  obtain ⟨front', n, back', hsplit, hfront, hback⟩ := Log.exists_split hwaiting
  refine ⟨front', n, back', hsplit, ?_, ?_⟩
  · rw [← List.length_map Prod.fst, hfront]
    exact List.length_filter_le _ _
  · rw [List.map_append, hfront, hback, List.filter_append]

/-- Events that concern no request, while the requests stay where they are. -/
theorem Of.still (hof : roll.Of core) (s : Standing) {events : List Event}
    (hquiet : ∀ e ∈ events, e.concernsRequest = false)
    (hpending : core'.pending.filter Packet.isRequest = core.pending.filter Packet.isRequest)
    (hsent : core'.session.sent = core.session.sent) :
    ∃ added roll', added.map Prod.fst = events ∧ Step core core' s roll added roll' ∧
      roll'.Of core' := by
  obtain ⟨added, hadded, hquiet'⟩ := Log.exists_quiet hquiet
  exact ⟨added, roll, hadded, .settle hquiet' (List.Sublist.refl _),
    hof.waiting.trans hpending.symm, hof.held.trans hsent.symm⟩

/-- So it is while the books stay as they are. -/
theorem Of.aside (hof : roll.Of core) (s : Standing) {events : List Event}
    (hquiet : ∀ e ∈ events, e.concernsRequest = false) (hbooks : core'.books = core.books) :
    ∃ added roll', added.map Prod.fst = events ∧ Step core core' s roll added roll' ∧
      roll'.Of core' :=
  hof.still s hquiet (congrArg (List.filter Packet.isRequest ∘ Core.Books.pending) hbooks)
    (congrArg (Session.sent ∘ Core.Books.session) hbooks)

/-- A packet of the queue is written. -/
theorem Of.written (hof : roll.Of core) {front back : List Packet} {p : Packet}
    (hpending : core.pending = front ++ p :: back) :
    ∃ added roll',
      added.map Prod.fst
        = .wrote p none :: ({ core with pending := front ++ back }.noteWritten p).2 ∧
      Step core ({ core with pending := front ++ back }.noteWritten p).1
        (.working front.length) roll added roll' ∧
      roll'.Of ({ core with pending := front ++ back }.noteWritten p).1 := by
  have hnote := Core.noteWritten_cases { core with pending := front ++ back } p
  by_cases hrequest : p.isRequest = true
  -- The request has a number, and leaves the row of those that wait.
  · obtain ⟨front', n, back', hwaiting, hfront, hrest⟩ := hof.split hpending hrequest
    rcases hnote with
      ⟨-, key, -, -, hnote⟩ | ⟨-, hnote⟩ | ⟨-, -, reason, hnote⟩ <;> rw [hnote]
    · refine ⟨[(.wrote p none, n)], _, rfl,
        .write hwaiting hfront hrequest (by simp) (Or.inr ⟨key, rfl⟩), hrest, ?_⟩
      rw [List.map_append, hof.held]
      rfl
    · refine ⟨[(.wrote p none, n)], _, rfl,
        .write hwaiting hfront hrequest (by simp) (Or.inl rfl), hrest, ?_⟩
      rw [List.append_nil]
      exact hof.held
    · refine ⟨[(.wrote p none, n), (.untracked p reason, 0)], _, rfl,
        .write hwaiting hfront hrequest (List.forall_mem_singleton.mpr rfl) (Or.inl rfl),
        hrest, ?_⟩
      rw [List.append_nil]
      exact hof.held
  · -- What is no request needs no answer.
    have hawaits : ¬p.awaitsAnswer = true :=
      fun hawaits => hrequest (Packet.isRequest_of_awaitsAnswer hawaits)
    have hplain : { core with pending := front ++ back }.noteWritten p
        = ({ core with pending := front ++ back }, []) :=
      if_neg hawaits
    rw [hplain]
    refine hof.still _ ?_ ?_ rfl
    · simpa [Event.concernsRequest, Event.queued?, Event.writesRequest] using hrequest
    · rw [hpending, List.filter_append, List.filter_append, List.filter_cons_of_neg hrequest]

/-- A packet is routed. -/
theorem Of.routed (hof : roll.Of core) (hwell : core.session.WellFormed) (s : Standing)
    (p : Packet) (handler : Option Handler) :
    ∃ added roll',
      added.map Prod.fst = .received p :: (core.route p).events
        ++ (core.route p).notice.toList.map (.notified · handler) ∧
      Step core (core.route p).core s roll added roll' ∧ roll'.Of (core.route p).core := by
  have hquiet : ∀ e ∈ .received p :: (core.route p).events
      ++ (core.route p).notice.toList.map (Event.notified · handler),
      e.concernsRequest = false := by
    rw [Core.route_events hwell p]
    intro e he
    rcases List.mem_cons.mp he with rfl | he
    · rfl
    · obtain ⟨n, -, rfl⟩ := List.mem_map.mp he
      rfl
  -- None of these events concerns a request, so what is tracked decides.
  obtain ⟨added, hadded, hquiet'⟩ := Log.exists_quiet hquiet
  cases Core.route_cases hwell p with
  | answer answers hanswers hsent hpending =>
      refine hof.still s hquiet ?_ hsent
      have hnone : answers.filter Packet.isRequest = [] :=
        List.filter_eq_nil_iff.mpr fun a ha => by rw [hanswers a ha]; exact Bool.false_ne_true
      rw [hpending, List.filter_append, hnone, List.append_nil]
  | complete front back e n hfound hsent hpending =>
      obtain ⟨front', n', back', hsplit, hfront, hback⟩ :=
        Log.exists_split (hof.held.trans hfound)
      refine ⟨added, { roll with held := front' ++ back' }, hadded, .settle hquiet' ?_, ?_, ?_⟩
      -- The one that is completed leaves the row, and the others keep their order.
      · rw [hsplit]
        exact (List.Sublist.refl _).append (List.sublist_cons_self _ back')
      · rw [hpending]
        exact hof.waiting
      · rw [List.map_append, hfront, hback, hsent]
  | release front back e packetId hfound hkey hsent hpending hevents hnotice hrec =>
      obtain ⟨front', n, back', hsplit, hfront, hback⟩ :=
        Log.exists_split (hof.held.trans hfound)
      refine ⟨added, _, hadded, .release hquiet' hsplit ?_, ?_, ?_⟩
      · rw [hrec]
        exact Core.staysTracked_of_release hwell hfound hkey
      · rw [hpending, List.filter_append]
        exact hof.waiting.trans (List.append_nil _).symm
      · rw [List.map_append, List.map_append, hfront, hback, hsent]
        rfl

/-- A connection is made. -/
theorem Of.resumed (hof : roll.Of core) (hwell : core.session.WellFormed) (s : Standing)
    (link : Link) (now : Nat) :
    ∃ added roll', added.map Prod.fst = core.greeting ++ ({ core with link }.resume now).2 ∧
      Step core ({ core with link }.resume now).1 s roll added roll' ∧
      roll'.Of ({ core with link }.resume now).1 := by
  have hidem : ∀ ps : List Packet,
      (ps.filter Packet.isRequest).filter Packet.isRequest = ps.filter Packet.isRequest := by
    intro ps
    rw [List.filter_filter]
    exact List.filter_congr fun p _ => Bool.and_self _
  have hquiet : ∀ forgotten, ∀ e ∈ core.greeting ++ [Event.established forgotten],
      e.concernsRequest = false := by
    intro forgotten
    refine List.forall_mem_append.mpr ⟨fun e he => ?_, List.forall_mem_singleton.mpr rfl⟩
    exact Event.concernsRequest_of_isOwn (core.isOwn_greeting e he)
  cases hclean : core.settings.cleanSession with
  -- A clean connection forgets what was tracked, and keeps the requests that wait.
  | true =>
      rw [Core.resume_clean { core with link } now hclean]
      obtain ⟨added, hadded, hquiet'⟩ := Log.exists_quiet (hquiet (some core.session))
      refine ⟨added, { roll with held := [] }, hadded, .settle hquiet' (List.nil_sublist _), ?_,
        rfl⟩
      exact hof.waiting.trans (hidem core.pending).symm
  -- Otherwise what was tracked waits again, in front, unless it has its PUBREC.
  | false =>
      rw [Core.resume_kept { core with link } now hclean]
      obtain ⟨added, hadded, hquiet'⟩ := Log.exists_quiet (hquiet none)
      refine ⟨added, _, hadded, .redeliver hquiet' ?_, ?_, ?_⟩
      · have hopened : Event.opened core.settings.hostname core.settings.port none
            ∈ added.map Prod.fst := by
          rw [hadded]
          simp [Core.greeting, Core.opened]
        obtain ⟨x, hx, heq⟩ := List.mem_map.mp hopened
        exact ⟨x, hx, by rw [heq]; rfl⟩
      · show _ = (core.session.sent.map core.session.redelivery
          ++ core.pending.filter Packet.isRequest).filter Packet.isRequest
        have hrequests : core.session.sent.filter
              (Packet.isRequest ∘ core.session.redelivery)
            = core.session.sent.filter fun e => !core.session.staysTracked e :=
          List.filter_congr fun e he =>
            Session.isRequest_redelivery core.session (hwell.sent_awaits e he)
        rw [List.filter_append, hidem, List.filter_map, hrequests, ← hof.held, List.filter_map,
          ← hof.waiting, List.map_append, List.map_map, List.map_map]
        rfl
      · show _ = core.session.sent.filter core.session.staysTracked
        rw [← hof.held, List.filter_map]
        rfl

/-- Every beat does one of these things to a roll. -/
theorem Of.step (hof : roll.Of core) (hwell : core.session.WellFormed) {a : Action}
    {events : List Event} (hbeat : Client.Beat a s core events s' core') :
    ∃ added roll', added.map Prod.fst = events ∧ Step core core' s roll added roll' ∧
      roll'.Of core' := by
  cases hbeat with
  | quiet hbooks => exact hof.aside s (by simp) hbooks
  | ask _ r => exact hof.still s (List.forall_mem_singleton.mpr rfl) rfl rfl
  | wake | park | stop => exact hof.aside _ (by simp) rfl
  | @queue _ _ _ r inbox hinbox =>
      obtain ⟨p, ids, haccept, hrequest, -, hfresh, -⟩ := Core.accept_cases { core with inbox } r
      have hmove : Core.Move true core _ _ := .queue hinbox
      rw [haccept] at hmove ⊢
      refine ⟨[(.queued p, 0)], _, rfl, .queue hfresh hmove, ?_, hof.held⟩
      -- The request gets the next number, and waits behind all others.
      show (roll.waiting ++ [(p, roll.next)]).map Prod.fst
        = (core.pending ++ [p]).filter Packet.isRequest
      rw [List.map_append, List.filter_append, hof.waiting, List.filter_cons_of_pos hrequest]
      rfl
  | write hpending => exact hof.written hpending
  | miss hpending hbooks | fail hpending hbooks =>
      exact hof.aside _ (List.forall_mem_singleton.mpr rfl) hbooks
  | route _ p handler => exact hof.routed hwell _ p handler
  | ping hbooks | pingFail hbooks | leave hbooks =>
      exact hof.aside _ (List.forall_mem_singleton.mpr (Event.concernsRequest_of_isOwn rfl)) hbooks
  | finish hbooks =>
      exact hof.aside _ (List.forall_mem_cons.mpr ⟨rfl, List.forall_mem_singleton.mpr rfl⟩) hbooks
  | attempt link hfailed =>
      exact hof.aside _ (fun e he => Event.concernsRequest_of_isOwn (hfailed.isOwn e he)) rfl
  | connect _ link now => exact hof.resumed hwell _ link now

end Roll

/-- The attributed logs of a client that starts with a core, with where it stands
after them, its core, and its requests. -/
inductive Rolled (start : Core) : List (Event × Nat) → Standing → Core → Roll → Prop where
  | start : Rolled start [] .resting start (.start start)
  | step {a : Action} {s s' : Standing} {core core' : Core} {log added : List (Event × Nat)}
      {roll roll' : Roll} (h : Rolled start log s core roll)
      (hbeat : Client.Beat a s core (added.map Prod.fst) s' core')
      (hstep : Roll.Step core core' s roll added roll') (hof : roll'.Of core') :
      Rolled start (log ++ added) s' core' roll'

namespace Roll

variable {s s' : Standing} {core core' start : Core} {log added : List (Event × Nat)}
  {roll roll' : Roll}

/-- Every request that is queued gets the next number. -/
theorem Step.next (h : Step core core' s roll added roll') :
    roll'.next = roll.next + (Log.queued (added.map Prod.fst)).length := by
  cases h with
  | queue => rfl
  | write hwaiting hfront hrequest hquiet =>
      rw [Log.queued_wrote, (Log.of_not_concernsRequest hquiet).1]
      rfl
  | settle hquiet | release hquiet | redeliver hquiet =>
      rw [(Log.of_not_concernsRequest hquiet).1]
      rfl

/-- Only requests that wait are written. -/
theorem Step.numbers (h : Step core core' s roll added roll') :
    ∀ n ∈ Log.numbers added, n ∈ roll.waiting.map Prod.snd := by
  intro n hn
  cases h with
  | queue => cases hn
  | write hwaiting hfront hrequest hquiet =>
      rw [Log.numbers_wrote hrequest, (Log.of_not_concernsRequest hquiet).2] at hn
      rw [List.mem_singleton.mp hn, hwaiting]
      simp
  | settle hquiet | release hquiet | redeliver hquiet =>
      rw [(Log.of_not_concernsRequest hquiet).2] at hn
      cases hn

/-- Every request of the roll was in it before, or it is queued. -/
theorem Step.entries (h : Step core core' s roll added roll')
    (hawaits : ∀ x ∈ roll.held, x.1.packet.awaitsAnswer = true) :
    (Log.queued (added.map Prod.fst) = [] ∧ roll'.entries.Subperm roll.entries) ∨
    ∃ p, added = [(.queued p, 0)] ∧ p.fresh = p ∧ Core.Move true core [.queued p] core' ∧
      roll'.entries.Perm ((p, roll.next) :: roll.entries) := by
  cases h with
  | settle hquiet hheld =>
      exact Or.inl ⟨(Log.of_not_concernsRequest hquiet).1,
        ((List.Sublist.refl _).append (hheld.map _)).subperm⟩
  | @queue _ _ p hfresh hmove =>
      refine Or.inr ⟨p, rfl, hfresh, hmove, ?_⟩
      have hnew : [(p, roll.next)].map (Prod.map Packet.fresh id) = [(p, roll.next)] :=
        congrArg (fun q => [(q, roll.next)]) hfresh
      rw [Roll.entries, List.map_append, hnew, List.append_assoc]
      exact List.perm_middle
  | @write _ _ front back p n _ new hwaiting hfront hrequest hquiet hnew =>
      refine Or.inl ⟨by rw [Log.queued_wrote, (Log.of_not_concernsRequest hquiet).1], ?_⟩
      have hsub : (new.map (Prod.map (fun e => e.packet.fresh) id)).Sublist [(p.fresh, n)] := by
        rcases hnew with rfl | ⟨key, rfl⟩
        · exact List.nil_sublist _
        · exact List.Sublist.refl _
      -- What was written moves from the waiting to the held.
      have hmoved : ∀ (a b c : List (Packet × Nat)) (x : Packet × Nat),
          (a ++ b ++ (c ++ [x])).Perm (a ++ x :: b ++ c) := by
        intro a b c x
        rw [← List.append_assoc]
        exact (List.perm_append_singleton x _).trans (List.perm_middle.symm.append_right c)
      rw [Roll.entries, Roll.entries, hwaiting, List.map_append, List.map_append, List.map_append,
        List.map_cons]
      exact ((List.Sublist.refl _).append ((List.Sublist.refl _).append hsub)).subperm.trans
        (hmoved _ _ _ _).subperm
  | @release _ _ _ front back e n hquiet hheld =>
      refine Or.inl ⟨(Log.of_not_concernsRequest hquiet).1, ?_⟩
      have hperm : (front ++ back ++ [(e, n)]).Perm roll.held := by
        rw [hheld, List.append_assoc]
        exact (List.perm_append_singleton (e, n) back).append_left front
      exact ((hperm.map _).append_left _).subperm
  | redeliver hquiet =>
      refine Or.inl ⟨(Log.of_not_concernsRequest hquiet).1, ?_⟩
      -- But for the duplicate flag, what waits again is what was held.
      have hagain : ((roll.held.filter fun x => !core.session.staysTracked x.1).map
            (Prod.map core.session.redelivery id)).map (Prod.map Packet.fresh id)
          = (roll.held.filter fun x => !core.session.staysTracked x.1).map
            (Prod.map (fun e => e.packet.fresh) id) := by
        rw [List.map_map]
        refine List.map_congr_left fun x hx => ?_
        obtain ⟨hmem, hstays⟩ := List.mem_filter.mp hx
        rcases Core.redelivery_cases core.session (hawaits x hmem) with
          ⟨-, -, hfresh⟩ | ⟨hstays', -⟩
        · exact congrArg (·, x.2) hfresh
        · rw [hstays'] at hstays
          cases hstays
      have hperm : (roll.held.filter (fun x => !core.session.staysTracked x.1)
          ++ roll.held.filter fun x => core.session.staysTracked x.1).Perm roll.held :=
        List.perm_append_comm.trans (List.filter_append_perm _ roll.held)
      rw [Roll.entries, Roll.entries, List.map_append, hagain, List.append_assoc]
      refine (List.Perm.trans ?_ ((hperm.map _).append_left _)).subperm
      rw [List.map_append]
      exact List.perm_append_comm_assoc _ _ _

/-- A request that waits after a beat waited before, and nothing was written for it;
or it has just been queued, or a new connection took it from the session. -/
theorem Step.waiting (h : Step core core' s roll added roll')
    (hdistinct : (roll.entries.map Prod.snd).Nodup)
    (hawaits : ∀ x ∈ roll.held, x.1.packet.awaitsAnswer = true) :
    ∀ x ∈ roll'.waiting, (x ∈ roll.waiting ∧ x.2 ∉ Log.numbers added) ∨
      (x.2 = roll.next ∧ Log.numbers added = []) ∨
      (x.1.awaitsAnswer = true ∧ Log.numbers added = [] ∧ ∃ y ∈ added, y.1.opens = true) := by
  intro x hx
  cases h with
  | settle hquiet | release hquiet =>
      rw [(Log.of_not_concernsRequest hquiet).2]
      exact Or.inl ⟨hx, List.not_mem_nil⟩
  | queue =>
      rcases List.mem_append.mp hx with hx | hx
      · exact Or.inl ⟨hx, List.not_mem_nil⟩
      · exact Or.inr (Or.inl ⟨by rw [List.mem_singleton.mp hx], rfl⟩)
  | @write _ _ front back p n rest new hwaiting hfront hrequest hquiet =>
      have hsub : (front ++ back).Sublist roll.waiting := by
        rw [hwaiting]
        exact (List.Sublist.refl _).append (List.sublist_cons_self _ back)
      refine Or.inl ⟨hsub.subset hx, ?_⟩
      rw [Log.numbers_wrote hrequest, (Log.of_not_concernsRequest hquiet).2, List.mem_singleton]
      -- The numbers of the others are other numbers.
      have hnodup : (roll.waiting.map Prod.snd).Nodup := by
        rw [Roll.entries, List.map_append, List.map_map] at hdistinct
        exact hdistinct.of_append_left
      rw [hwaiting, List.map_append, List.map_cons, List.nodup_middle, ← List.map_append,
        List.nodup_cons] at hnodup
      exact fun heq => hnodup.1 (List.mem_map.mpr ⟨x, hx, heq⟩)
  | redeliver hquiet hopens =>
      have hnone := (Log.of_not_concernsRequest hquiet).2
      rcases List.mem_append.mp hx with hx | hx
      · obtain ⟨y, hy, rfl⟩ := List.mem_map.mp hx
        obtain ⟨hmem, hstays⟩ := List.mem_filter.mp hy
        rcases Core.redelivery_cases core.session (hawaits y hmem) with
          ⟨-, hagain, -⟩ | ⟨hstays', -⟩
        · exact Or.inr (Or.inr ⟨hagain, hnone, hopens⟩)
        · rw [hstays'] at hstays
          cases hstays
      · rw [hnone]
        exact Or.inl ⟨hx, List.not_mem_nil⟩

/-- What the numbers of a roll say after a log. -/
structure Sound (start : Core) (log : List (Event × Nat)) (roll : Roll) : Prop where
  next : roll.next = (Log.asked start log).length
  distinct : (roll.entries.map Prod.snd).Nodup
  asked : ∀ x ∈ roll.entries, Log.AskedAs start log x.1 x.2
  /-- Only requests that were queued were written. -/
  below : ∀ n ∈ Log.numbers log, n < roll.next
  /-- What waits was not written on the same connection. -/
  apart : ∀ x ∈ roll.waiting, x.2 ∉ Log.current log
  /-- What waits and was written has to be answered. -/
  again : ∀ x ∈ roll.waiting, x.2 ∈ Log.numbers log → x.1.awaitsAnswer = true

/-- Every request of a roll has a number below the next one. -/
theorem Sound.lt (h : roll.Sound start log) : ∀ x ∈ roll.entries, x.2 < roll.next :=
  fun x hx => h.next ▸ (h.asked x hx).lt

/-- A request that waits is one of the roll. -/
theorem mem_entries_of_waiting {p : Packet} {n : Nat} (h : (p, n) ∈ roll.waiting) :
    (p.fresh, n) ∈ roll.entries :=
  List.mem_append_left _ (List.mem_map.mpr ⟨(p, n), h, rfl⟩)

/-- At the start the numbers are those of the session. -/
theorem sound_start (start : Core) : (Roll.start start).Sound start [] := by
  have hasked : Log.asked start [] = start.session.sent.map fun e => e.packet.fresh :=
    List.append_nil _
  have hentries : (Roll.start start).entries
      = start.session.sent.zipIdx.map (Prod.map (fun e => e.packet.fresh) id) :=
    rfl
  constructor
  · rw [hasked, List.length_map]
    rfl
  · rw [hentries, List.map_map]
    show (start.session.sent.zipIdx.map Prod.snd).Nodup
    rw [List.zipIdx_map_snd]
    exact List.nodup_range'
  · intro x hx
    rw [hentries] at hx
    obtain ⟨⟨e, i⟩, he, rfl⟩ := List.mem_map.mp hx
    have hget := List.mk_mem_zipIdx_iff_getElem?.mp he
    have hfresh : e.packet.fresh.fresh = e.packet.fresh := e.packet.fresh_fresh
    show Log.AskedAs start [] e.packet.fresh i
    rw [Log.AskedAs, hasked, List.getElem?_map, hget, hfresh]
    refine ⟨rfl, ?_⟩
    -- Requests with the same packet have the same identifier.
    intro hstart _ _ later hlater heq
    rw [List.getElem?_map] at heq
    obtain ⟨e', he', hsame⟩ := Option.map_eq_some_iff.mp heq
    have hids : (start.session.sent.map fun e => e.packet.packetId?).Nodup := by
      have hdistinct := hstart.distinct
      rw [Core.Distinct, Core.inFlight, List.map_append, List.map_map] at hdistinct
      exact hdistinct.of_append_right
    refine List.nodup_iff_getElem?_ne_getElem?.mp hids i later hlater ?_ ?_
    · rw [List.length_map]
      exact (List.getElem?_eq_some_iff.mp he').1
    · rw [List.getElem?_map, List.getElem?_map, hget, he']
      exact congrArg some (Packet.packetId?_eq_of_fresh hsame.symm)
  · intro n hn
    cases hn
  · intro x hx
    cases hx
  · intro x hx
    cases hx

/-- What they say is kept, if no request that has to be answered gets the packet of
another one. -/
theorem Sound.step (h : roll.Sound start log) (hstep : Step core core' s roll added roll')
    (hawaits : ∀ x ∈ roll.held, x.1.packet.awaitsAnswer = true)
    (hother : ∀ p, Core.Move true core [.queued p] core' → start.Identified →
      Log.RoomyAfter start.inFlight.length (log.map Prod.fst ++ [.queued p]) →
      ∀ x ∈ roll.entries, x.1.awaitsAnswer = true → x.1.fresh ≠ p) :
    roll'.Sound start (log ++ added) := by
  have hasked := Log.asked_append start log added
  have hnext : roll'.next = (Log.asked start (log ++ added)).length := by
    rw [hstep.next, h.next, hasked, List.length_append]
  -- A request of the roll was in it before, or it is queued now.
  have hentries := hstep.entries hawaits
  have hfresh : ∀ n ∈ Log.numbers log, n ≠ roll.next := fun n hn => Nat.ne_of_lt (h.below n hn)
  refine ⟨hnext, ?_, ?_, ?_, ?_, ?_⟩
  · rcases hentries with ⟨-, kept, hperm, hsub⟩ | ⟨p, -, -, -, hperm⟩
    · exact (hperm.map Prod.snd).nodup_iff.mp (h.distinct.sublist (hsub.map Prod.snd))
    · rw [(hperm.map Prod.snd).nodup_iff, List.map_cons, List.nodup_cons]
      refine ⟨fun hmem => ?_, h.distinct⟩
      obtain ⟨x, hx, heq⟩ := List.mem_map.mp hmem
      exact Nat.ne_of_lt (h.lt x hx) heq
  · intro x hx
    have hbefore : x ∈ roll.entries → Log.AskedAs start (log ++ added) x.1 x.2 := by
      intro hmem
      refine (h.asked x hmem).append fun hstart hroomy hawaits' hqueued => ?_
      rcases hentries with ⟨hnone, -⟩ | ⟨p, rfl, -, hmove, -⟩
      · rw [hnone] at hqueued
        cases hqueued
      · exact hother p hmove hstart hroomy x hmem hawaits' (List.mem_singleton.mp hqueued)
    rcases hentries with ⟨-, hsub⟩ | ⟨p, rfl, hp, -, hperm⟩
    · exact hbefore (hsub.subset hx)
    · rcases List.mem_cons.mp (hperm.mem_iff.mp hx) with rfl | hx
      · have hlast : Log.asked start (log ++ [(.queued p, 0)]) = Log.asked start log ++ [p] :=
          hasked
        rw [Log.AskedAs, hlast, h.next, hp]
        refine ⟨by simp, fun _ _ _ later hlater => ?_⟩
        rw [List.getElem?_eq_none (by rw [List.length_append]; exact hlater)]
        simp
      · exact hbefore hx
  · intro n hn
    rw [Log.numbers_append, List.mem_append] at hn
    rw [hstep.next]
    refine Nat.lt_add_right _ (hn.elim (h.below n) fun hn => ?_)
    obtain ⟨⟨p, n⟩, hx, rfl⟩ := List.mem_map.mp (hstep.numbers n hn)
    show n < roll.next
    exact h.lt (p.fresh, n) (mem_entries_of_waiting hx)
  · intro x hx hmem
    rcases hstep.waiting h.distinct hawaits x hx with
      ⟨hwaiting, hnot⟩ | ⟨hnew, hnone⟩ | ⟨-, hnone, hopens⟩
    · exact (Log.mem_current_append hmem).elim (h.apart x hwaiting) hnot
    · rw [hnew] at hmem
      rcases Log.mem_current_append hmem with hmem | hmem
      · exact hfresh _ ((Log.current_sublist log).subset hmem) rfl
      · rw [hnone] at hmem
        cases hmem
    · rw [Log.current_append_of_opens hopens hnone] at hmem
      cases hmem
  · intro x hx hmem
    rw [Log.numbers_append, List.mem_append] at hmem
    rcases hstep.waiting h.distinct hawaits x hx with
      ⟨hwaiting, hnot⟩ | ⟨hnew, hnone⟩ | ⟨hagain, -⟩
    · exact h.again x hwaiting (hmem.resolve_right hnot)
    · rw [hnone, hnew] at hmem
      exact absurd rfl (hfresh _ (hmem.resolve_right List.not_mem_nil))
    · exact hagain

end Roll

namespace Rolled

variable {start core : Core} {log : List (Event × Nat)} {s : Standing} {roll : Roll}

/-- Attributing a log forgets nothing of it. -/
theorem beats (h : Rolled start log s core roll) :
    Client.Beats (fun _ => True) .resting start (log.map Prod.fst) s core := by
  induction h with
  | start => exact .refl
  | step _ hbeat _ _ ih =>
      rw [List.map_append]
      exact ih.snoc trivial hbeat

/-- So the session stays well-formed along it. -/
theorem wellFormed (h : Rolled start log s core roll) (hwell : start.session.WellFormed) :
    core.session.WellFormed :=
  Core.wellFormed_moves hwell h.beats.moves

/-- The roll has the requests of the core. -/
theorem of (h : Rolled start log s core roll) (hempty : start.pending = []) : roll.Of core := by
  cases h with
  | start => exact ⟨by rw [hempty]; rfl, List.zipIdx_map_fst 0 _⟩
  | step _ _ _ hof => exact hof

/-- What is held has to be answered. -/
theorem awaits (h : Rolled start log s core roll) (hempty : start.pending = [])
    (hwell : start.session.WellFormed) :
    ∀ x ∈ roll.held, x.1.packet.awaitsAnswer = true := by
  intro x hx
  refine (h.wellFormed hwell).sent_awaits x.1 ?_
  rw [← (h.of hempty).held]
  exact List.mem_map_of_mem hx

/-- A request of the roll that has to be answered is in flight. -/
theorem inFlight (h : Rolled start log s core roll) (hempty : start.pending = [])
    {x : Packet × Nat} (hx : x ∈ roll.entries) (hawaits : x.1.awaitsAnswer = true) :
    ∃ q ∈ core.inFlight, q.fresh = x.1 := by
  have hof := h.of hempty
  rcases List.mem_append.mp hx with hx | hx
  · obtain ⟨⟨p, n⟩, hp, rfl⟩ := List.mem_map.mp hx
    have hpending : p ∈ core.pending.filter Packet.isRequest :=
      hof.waiting ▸ List.mem_map_of_mem hp
    refine ⟨p, List.mem_append_left _ (List.mem_filter.mpr ⟨(List.mem_filter.mp hpending).1, ?_⟩),
      rfl⟩
    rw [← Packet.awaitsAnswer_fresh]
    exact hawaits
  · obtain ⟨⟨e, n⟩, he, rfl⟩ := List.mem_map.mp hx
    have hsent : e ∈ core.session.sent := hof.held ▸ List.mem_map_of_mem he
    exact ⟨e.packet, List.mem_append_right _ (List.mem_map_of_mem hsent), rfl⟩

/-- The numbers say what they should after every log. -/
theorem sound (h : Rolled start log s core roll) (hempty : start.pending = [])
    (hwell : start.session.WellFormed) : roll.Sound start log := by
  induction h with
  | start => exact Roll.sound_start start
  | @step a s s' core core' log added roll roll' hrolled hbeat hstep hof ih =>
      refine ih.step hstep (hrolled.awaits hempty hwell) ?_
      -- A request that is queued gets an identifier that is not in use.
      intro p hmove hstart hroomy x hx hawaits hfresh
      obtain ⟨q, hq, hsame⟩ := hrolled.inFlight hempty hx hawaits
      have hqueued : q.fresh = p := by
        rw [← hfresh, ← hsame, Packet.fresh_fresh]
      have htallied := Core.tallied_moves hstart hrolled.beats.moves
        (Log.always_append_iff.mp hroomy).1
      rcases (htallied.balanced hmove hroomy).added with hnone | ⟨p', hevents, -, hunused⟩
      · have hrequested : p ∈ Log.requested [.queued p] := by
          refine List.mem_filter.mpr ⟨List.mem_singleton.mpr rfl, ?_⟩
          rw [← hqueued, hsame]
          exact hawaits
        rw [hnone] at hrequested
        cases hrequested
      · obtain rfl := Event.queued.inj (List.singleton_inj.mp hevents)
        rw [← hqueued, Packet.packetId?_fresh] at hunused
        exact hunused (List.mem_map_of_mem hq)

/-- A request that is written was one of those that wait, behind no more than were
tried. -/
theorem before_write (h : Rolled start log s core roll) :
    ∀ before p n after, log = before ++ (.wrote p none, n) :: after → p.isRequest = true →
      ∃ tried core₀ roll₀ front back, Rolled start before (.working tried) core₀ roll₀ ∧
        roll₀.waiting = front ++ (p, n) :: back ∧ front.length ≤ tried := by
  induction h with
  | start =>
      intro before p n after hlog
      cases before <;> cases hlog
  | @step a s s' core core' log added roll roll' hrolled hbeat hstep hof ih =>
      intro before p n after hlog hrequest
      -- Events that concern no request write none.
      have hnot : ∀ {xs : List (Event × Nat)}, (∀ x ∈ xs, x.1.concernsRequest = false) →
          (.wrote p none, n) ∉ xs := by
        intro xs hquiet hmem
        cases hrequest.symm.trans (Event.of_not_concernsRequest (hquiet _ hmem)).2
      rcases Log.split_append hlog with ⟨rest, hold, -⟩ | ⟨rest, hbefore, hnew⟩
      · exact ih before p n rest hold hrequest
      · have hmem : (.wrote p none, n) ∈ added := by
          rw [hnew]
          simp
        cases hstep with
        | settle hquiet | release hquiet | redeliver hquiet => exact absurd hmem (hnot hquiet)
        | queue => simp at hmem
        | write hwaiting hfront _ hquiet =>
            cases rest with
            | nil =>
                obtain ⟨hx, -⟩ := List.cons.inj hnew
                obtain ⟨hwrote, rfl⟩ := Prod.mk.inj hx
                obtain ⟨rfl, -⟩ := Event.wrote.inj hwrote
                rw [hbefore, List.append_nil]
                exact ⟨_, _, _, _, _, hrolled, hwaiting, hfront⟩
            | cons x rest =>
                obtain ⟨-, htail⟩ := List.cons.inj hnew
                exact absurd (by rw [htail]; simp) (hnot hquiet)

end Rolled

/-- Every chain of beats can be attributed. -/
theorem Client.Beats.rolled {P : Action → Prop} {start core : Core} {log : List Event}
    {s : Standing} (h : Client.Beats P .resting start log s core) (hempty : start.pending = [])
    (hwell : start.session.WellFormed) :
    ∃ attributed roll, attributed.map Prod.fst = log ∧ Rolled start attributed s core roll := by
  induction h with
  | refl => exact ⟨[], _, rfl, .start⟩
  | snoc _ _ hbeat ih =>
      obtain ⟨attributed, roll, rfl, hrolled⟩ := ih
      obtain ⟨added, roll', rfl, hstep, hof⟩ :=
        (hrolled.of hempty).step (hrolled.wellFormed hwell) hbeat
      exact ⟨attributed ++ added, roll', List.map_append, hrolled.step hbeat hstep hof⟩

end Mqtt
