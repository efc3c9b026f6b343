import Mqtt.Proofs.Client.Released

/-!
# `Mqtt.Proofs.Client.Succession`: the order in which messages are released

When no write times out, a loop waits for packets only with an empty queue, and it
writes the queue from its front (`Standing.Prompt`). A PUBREC then finds no message
that waits to be written again, and moves the one that it is for to the end of the
session.

* `Beats.prompt`: this is so wherever a client stands.
* `Core.Succession`: messages that have their PUBREC are tracked, in the order of
  their last PUBRECs.
* `Succession.pairwise_resume`: a new connection queues PUBREL for them in this
  order.
-/

set_option autoImplicit false

namespace Mqtt

/-! ### Writes that do not time out -/

/-- Whether an event is a write that timed out. -/
def Event.timesOut : Event → Bool
  | .wrote _ (some error) => error.isTimeout
  | _ => false

/-- Whether no write timed out. -/
def Log.Timely (log : List Event) : Prop :=
  ∀ e ∈ log, e.timesOut = false

instance (log : List Event) : Decidable (Log.Timely log) :=
  inferInstanceAs (Decidable (∀ e ∈ log, e.timesOut = false))

/-- Logs in a row are timely if both are. -/
theorem Log.timely_append_iff {log later : List Event} :
    Timely (log ++ later) ↔ Timely log ∧ Timely later :=
  List.forall_mem_append

/-- What a core whose writes do not time out looks like where a client stands: no
packet of the queue was passed over, and a loop that waits has written all of it. -/
def Standing.Prompt (core : Core) : Standing → Prop
  | .working tried => tried = 0
  | .parked => core.pending = []
  | _ => True

namespace Client

/-- A beat without a timeout keeps a core prompt. -/
theorem Beat.prompt {a : Action} {s s' : Standing} {core core' : Core} {events : List Event}
    (h : Beat a s core events s' core') (hprompt : s.Prompt core) (htimely : Log.Timely events) :
    s'.Prompt core' := by
  -- Where the client stays, the queue stays.
  have hstay : ∀ {core₁ : Core}, core₁.pending = core.pending → s.Prompt core₁ := by
    intro core₁ hpending
    cases s with
    | parked => exact hpending.trans hprompt
    | _ => exact hprompt
  cases h with
  | quiet hbooks => exact hstay (congrArg Core.Books.pending hbooks)
  | ask => exact hstay rfl
  | queue | write | ping => exact hprompt
  | miss _ _ htimeout => cases htimeout.symm.trans (htimely _ List.mem_cons_self)
  | park => exact List.eq_nil_of_length_eq_zero hprompt
  | wake | connect => rfl
  | route _ _ _ hs =>
      rcases hs with rfl | rfl
      · rfl
      · trivial
  | finish _ _ hs => rcases hs with rfl | rfl <;> trivial
  | fail | pingFail | stop | leave | attempt => trivial

/-- So does a chain of beats. A client that rests has nothing to be prompt about. -/
theorem Beats.prompt {P : Action → Prop} {start core : Core} {log : List Event} {s : Standing}
    (h : Beats P .resting start log s core) (htimely : Log.Timely log) : s.Prompt core := by
  induction h with
  | refl => trivial
  | snoc _ _ hbeat ih =>
      obtain ⟨hbefore, hevents⟩ := Log.timely_append_iff.mp htimely
      exact hbeat.prompt (ih hbefore) hevents

/-- A packet comes in while the loop waits, and is routed. -/
theorem Beat.route_of_received {a : Action} {s s' : Standing} {core core' : Core}
    {events : List Event} (h : Beat a s core events s' core') {p : Packet}
    (hmem : .received p ∈ events) : s = .parked ∧ Core.Move true core events core' := by
  -- Nothing comes in with what a client does on its own account.
  have hown : ∀ {es : List Event}, (∀ e ∈ es, e.isOwn = true) → .received p ∉ es :=
    fun hes hin => by cases hes _ hin
  cases h with
  | route _ p handler => exact ⟨rfl, .route core p handler⟩
  | @queue _ _ _ r inbox hinbox =>
      obtain ⟨q, ids, haccept, -⟩ := Core.accept_cases { core with inbox } r
      rw [haccept] at hmem
      simp at hmem
  | write =>
      rcases List.mem_cons.mp hmem with hmem | hmem
      · cases hmem
      · obtain ⟨reason, hmem⟩ := Core.eq_untracked_of_noteWritten hmem
        cases hmem
  | attempt link hfailed => exact absurd hmem (hown hfailed.isOwn)
  | connect _ link now =>
      rcases List.mem_append.mp hmem with hmem | hmem
      · exact absurd hmem (hown core.isOwn_greeting)
      · obtain ⟨forgotten, hresume⟩ := Core.resume_events { core with link } now
        rw [hresume] at hmem
        simp at hmem
  | _ => simp at hmem

end Client

/-! ### PUBRECs in order -/

/-- The key of a request does not depend on the duplicate flag. -/
theorem ExchangeKey.ofPacket?_eq_of_fresh {p q : Packet} (h : p.fresh = q.fresh) :
    ofPacket? p = ofPacket? q := by
  have hkey : ∀ r : Packet, ofPacket? r.fresh = ofPacket? r := by
    intro r
    cases r <;> rfl
  rw [← hkey p, h, hkey q]

/-- The key of a message that has to be answered. -/
theorem ExchangeKey.ofPacket?_publish {m : Message}
    (h : (Packet.publish m).awaitsAnswer = true) :
    ofPacket? (.publish m) = some ⟨.publish, m.packetId⟩ :=
  ofPacket?_eq_some_iff.mpr ⟨rfl, if_neg (of_decide_eq_true h)⟩

namespace Log

/-- Whether a PUBREC came under the second identifier, and none under the first one
after it. -/
def LaterReceipt (log : List Event) (i j : UInt16) : Prop :=
  ∃ earlier later, log = earlier ++ .received (.pubRec j) :: later ∧
    .received (.pubRec i) ∉ later

/-- Whether the messages of two exchanges, if both were answered with PUBREC since they
were written, were last answered in this order. -/
def AnsweredBefore (log : List Event) (e e' : Exchange) : Prop :=
  ∀ m m', e.packet = .publish m → e'.packet = .publish m' → Receipted log m → Receipted log m' →
    LaterReceipt log m.packetId m'.packetId

variable {log events : List Event}

/-- Without a PUBREC for it, what was answered was answered before, and not completed
since. -/
theorem Receipted.of_append {m : Message} (h : Receipted (log ++ events) m)
    (hnone : .received (.pubRec m.packetId) ∉ events) :
    Receipted log m ∧
      ∀ q ∈ completed events, ExchangeKey.ofPacket? q ≠ ExchangeKey.ofPacket? (.publish m) := by
  obtain ⟨before, since, out, hlog, hout, hsince, hcomp⟩ := h
  rcases split_append hlog with ⟨rest, hold, rfl⟩ | ⟨rest, -, hnew⟩
  · rw [completed_append] at hsince
    refine ⟨⟨before, rest, out, hold, hout, ?_, ?_⟩, ?_⟩
    · exact fun q hq => hsince q (List.mem_append_left _ hq)
    · exact fun hmem => hcomp (List.mem_append_left _ hmem)
    · exact fun q hq => hsince q (List.mem_append_right _ hq)
  · exact absurd (by rw [hnew]; simp) hnone

/-- While no PUBREC comes for either, the order stays. -/
theorem AnsweredBefore.append {e e' : Exchange} (h : AnsweredBefore log e e')
    (hnone : ∀ m, e.packet = .publish m → .received (.pubRec m.packetId) ∉ events)
    (hnone' : ∀ m, e'.packet = .publish m → .received (.pubRec m.packetId) ∉ events) :
    AnsweredBefore (log ++ events) e e' := by
  intro m m' hm hm' hreceipted hreceipted'
  obtain ⟨earlier, later, hlog, hlater⟩ := h m m' hm hm'
    (hreceipted.of_append (hnone m hm)).1 (hreceipted'.of_append (hnone' m' hm')).1
  refine ⟨earlier, later ++ events, ?_, List.not_mem_append hlater (hnone m hm)⟩
  rw [hlog, List.append_assoc, List.cons_append]

end Log

namespace Core

/-- Messages that were answered with PUBREC since they were written are tracked beside
it, in the order in which they were last answered. -/
structure Succession (log : List Event) (core : Core) : Prop where
  tracked : ∀ m, (Packet.publish m).awaitsAnswer = true → Log.Receipted log m →
    ⟨.publish, m.packetId⟩ ∈ Exchange.keys core.session.sent ∧
      core.session.isReleased m.packetId = true
  order : core.session.sent.Pairwise (Log.AnsweredBefore log)

/-- A message that was answered is tracked, if nothing waits to be written again. -/
theorem tracked_of_receipted {connecting : Bool} {start core : Core} {log : List Event}
    (h : start.Identified) (hkept : start.settings.cleanSession = false)
    (hmoves : Moves connecting start log core)
    (hroomy : Log.RoomyAfter start.inFlight.length log)
    (hwaiting : ∀ q ∈ core.pending, q.awaitsAnswer = false) {m : Message}
    (hawaits : (Packet.publish m).awaitsAnswer = true) (hreceipted : Log.Receipted log m) :
    ⟨.publish, m.packetId⟩ ∈ Exchange.keys core.session.sent := by
  obtain ⟨before, since, out, hlog, ⟨⟨earlier, q, hbefore, hfresh⟩, hout⟩, hsince, -⟩ := hreceipted
  have hwrote : log
      = earlier ++ .wrote q none :: (out ++ .received (.pubRec m.packetId) :: since) := by
    rw [hlog, hbefore, List.append_assoc, List.cons_append]
  have hq : q.awaitsAnswer = true := by
    rw [← Packet.awaitsAnswer_fresh, hfresh, Packet.awaitsAnswer_fresh]
    exact hawaits
  -- A request that was written is completed, tracked, or waits to be written again.
  rcases remembered_moves h hkept hmoves hroomy earlier q _ hwrote hq with
    ⟨q', hq', hsame⟩ | ⟨e, he, hsame⟩ | ⟨-, q', hq', hawaits', -⟩
  · -- It was not completed.
    have hkey := ExchangeKey.ofPacket?_eq_of_fresh (hsame.trans hfresh)
    rw [Log.completed_append] at hq'
    rcases List.mem_append.mp hq' with hq' | hq'
    · exact absurd hkey (hout q' hq')
    · exact absurd hkey (hsince q' hq')
  · have hkey := ExchangeKey.ofPacket?_eq_of_fresh (hsame.trans hfresh)
    rw [ExchangeKey.ofPacket?_publish hawaits,
      (wellFormed_moves h.wellFormed hmoves).sent_keyed e he] at hkey
    exact Option.some.inj hkey ▸ List.mem_map_of_mem he
  · cases (hwaiting q' hq').symm.trans hawaits'

/-- A PUBREC is routed alone. -/
theorem eq_of_pubRec {connecting : Bool} {core core' : Core} {events : List Event}
    (h : core.session.WellFormed) (hmove : Move connecting core events core') {i : UInt16}
    (hmem : .received (.pubRec i) ∈ events) :
    events = [.received (.pubRec i)] ∧ core' = (core.route (.pubRec i)).core := by
  refine ⟨?_, eq_route_of_received h hmove hmem⟩
  cases hmove.effect h with
  | aside hbooks haside => cases haside _ hmem
  | route p handler hrouting =>
      obtain rfl : .pubRec i = p := by simpa using hmem
      rcases route_pubRec_cases h i with ⟨front, m, back, -, -, -, -, hnotice⟩ | ⟨-, hroute⟩
      · rw [hnotice]
        rfl
      · rw [hroute]
        rfl
  | _ => simp at hmem

variable {connecting : Bool} {core core' : Core} {log events : List Event}

/-- Nothing was answered at the start. -/
theorem succession_nil (core : Core) : Succession [] core := by
  have hnone : ∀ m, ¬Log.Receipted [] m := by
    rintro m ⟨before, since, out, hlog, -⟩
    cases before <;> cases hlog
  refine ⟨fun m _ h => absurd h (hnone m), ?_⟩
  exact List.pairwise_of_forall_mem_list fun e _ e' _ m m' _ _ h => absurd h (hnone m)

/-- Without a PUBREC an answered message stays where it is. -/
theorem Succession.tracked_move (h : Succession log core) (hwell : core.session.WellFormed)
    (hkept : core.settings.cleanSession = false) (hmove : Move connecting core events core')
    {m : Message} (hawaits : (Packet.publish m).awaitsAnswer = true)
    (hnone : .received (.pubRec m.packetId) ∉ events)
    (hreceipted : Log.Receipted (log ++ events) m) :
    ⟨.publish, m.packetId⟩ ∈ Exchange.keys core'.session.sent ∧
      core'.session.isReleased m.packetId = true := by
  obtain ⟨hbefore, hother⟩ := hreceipted.of_append hnone
  obtain ⟨hkey, hreleased⟩ := h.tracked m hawaits hbefore
  obtain ⟨m', hm'⟩ := Session.exists_message hwell hkey
  rcases tracked_of_released hwell hmove hm' hreleased with
    ⟨hclean, -⟩ | hstays | ⟨ack, handler, -, hevents⟩
  · cases hclean.symm.trans hkept
  · exact ⟨List.mem_map_of_mem hstays, isReleased_of_tracked hwell hmove hm' hstays hreleased⟩
  · -- It was not completed.
    have hcompleted : .publish m' ∈ Log.completed events := by
      rw [hevents]
      exact List.mem_singleton.mpr rfl
    refine absurd ?_ (hother _ hcompleted)
    rw [ExchangeKey.ofPacket?_publish hawaits]
    exact hwell.sent_keyed _ hm'

/-- Without a PUBREC the answered messages stay in order: at most one is added, and that
one was not answered. -/
theorem Succession.order_move (h : Succession log core) (hwell : core.session.WellFormed)
    (hmove : Move connecting core events core') (hnone : ∀ i, .received (.pubRec i) ∉ events) :
    core'.session.sent.Pairwise (Log.AnsweredBefore (log ++ events)) := by
  have hsub : ∀ {es : List Exchange}, es.Sublist core.session.sent →
      es.Pairwise (Log.AnsweredBefore (log ++ events)) := fun hes =>
    (h.order.sublist hes).imp fun hbefore =>
      hbefore.append (fun m _ => hnone m.packetId) fun m _ => hnone m.packetId
  cases hmove.effect hwell with
  | aside hbooks =>
      rw [show core'.session = core.session from congrArg Books.session hbooks]
      exact hsub (List.Sublist.refl _)
  | track hpending hawaits hkey hfree =>
      refine List.pairwise_append.mpr
        ⟨hsub (List.Sublist.refl _), List.pairwise_singleton _ _, ?_⟩
      rintro e - e' he' m m' - hm' - hreceipted
      obtain rfl := List.mem_singleton.mp he'
      obtain rfl := hm'
      -- Its key was free, so it was not answered before.
      obtain rfl := Option.some.inj (hkey.symm.trans (ExchangeKey.ofPacket?_publish hawaits))
      exact absurd (h.tracked m' hawaits (hreceipted.of_append (hnone _)).1).1 hfree
  | route p handler hrouting =>
      cases hrouting with
      | answer answers hanswers hsent =>
          rw [hsent]
          exact hsub (List.Sublist.refl _)
      | complete front back e n hfound hsent =>
          rw [hsent]
          exact hsub (sublist_cut hfound)
      | release front back e i hfound hkey hsent hpending hevents hnotice hrec =>
          rw [hrec] at hnone
          exact absurd List.mem_cons_self (hnone i)
  | forget => exact List.Pairwise.nil
  | redeliver => exact hsub List.filter_sublist
  | _ => exact hsub (List.Sublist.refl _)

/-- Moves without a PUBREC keep both. -/
theorem succession_moves {start : Core} (h : Succession log start)
    (hwell : start.session.WellFormed) (hkept : start.settings.cleanSession = false)
    (hmoves : Moves connecting start events core) (hnone : ∀ i, .received (.pubRec i) ∉ events) :
    Succession (log ++ events) core := by
  induction hmoves with
  | refl =>
      rw [List.append_nil]
      exact h
  | snoc hmoves hmove ih =>
      have hbefore := ih fun i hmem => hnone i (List.mem_append_left _ hmem)
      have hnone' := fun i hmem => hnone i (List.mem_append_right _ hmem)
      have hwell' := wellFormed_moves hwell hmoves
      rw [← List.append_assoc]
      exact ⟨fun m hawaits => hbefore.tracked_move hwell' (cleanSession_moves hmoves hkept) hmove
        hawaits (hnone' m.packetId), hbefore.order_move hwell' hmove hnone'⟩

/-- A PUBREC releases the message that it is for, and no other. -/
theorem Succession.isReleased_pubRec (h : Succession log core) (hwell : core.session.WellFormed)
    {i : UInt16} {m : Message} (hawaits : (Packet.publish m).awaitsAnswer = true)
    (hreceipted : Log.Receipted (log ++ [.received (.pubRec i)]) m)
    (htracked : ⟨.publish, m.packetId⟩
      ∈ Exchange.keys (core.route (.pubRec i)).core.session.sent) :
    (core.route (.pubRec i)).core.session.isReleased m.packetId = true := by
  rw [isReleased_route hwell]
  by_cases hid : m.packetId = i
  · subst hid
    refine Or.inr ⟨rfl, ?_⟩
    rcases route_pubRec_cases hwell m.packetId with ⟨front, m', back, hfound, -⟩ | ⟨-, hroute⟩
    · exact List.mem_map_of_mem (mem_cut hfound)
    · rw [hroute] at htracked
      exact htracked
  · have hnone : Event.received (.pubRec m.packetId) ∉ [Event.received (.pubRec i)] := by
      simpa using hid
    exact Or.inl ⟨(h.tracked m hawaits (hreceipted.of_append hnone).1).2, by simp⟩

/-- A PUBREC puts the message that it is for last. -/
theorem Succession.order_pubRec (h : Succession log core) (hwell : core.session.WellFormed)
    (i : UInt16) : (core.route (.pubRec i)).core.session.sent.Pairwise
      (Log.AnsweredBefore (log ++ [.received (.pubRec i)])) := by
  -- It is for no message under another key.
  have hsub : ∀ {es : List Exchange}, es.Sublist core.session.sent →
      ⟨.publish, i⟩ ∉ Exchange.keys es →
      es.Pairwise (Log.AnsweredBefore (log ++ [.received (.pubRec i)])) := by
    intro es hes hfree
    have hother : ∀ e ∈ es, ∀ m, e.packet = .publish m →
        Event.received (.pubRec m.packetId) ∉ [Event.received (.pubRec i)] := by
      intro e he m hm hmem
      obtain rfl : m.packetId = i := by simpa using hmem
      have hawaits := hwell.sent_awaits e (hes.subset he)
      have hofPacket := hwell.sent_keyed e (hes.subset he)
      rw [hm] at hawaits hofPacket
      rw [ExchangeKey.ofPacket?_publish hawaits] at hofPacket
      exact hfree (Option.some.inj hofPacket ▸ List.mem_map_of_mem he)
    exact (h.order.sublist hes).imp_of_mem fun he he' hbefore =>
      hbefore.append (hother _ he) (hother _ he')
  rcases route_pubRec_cases hwell i with ⟨front, m', back, hfound, hsent, -⟩ | ⟨hfree, hroute⟩
  · rw [hsent]
    refine List.pairwise_append.mpr ⟨?_, List.pairwise_singleton _ _, ?_⟩
    · exact hsub (sublist_cut hfound) (Exchange.key_not_mem_cut hwell.sent_nodup hfound)
    · intro e he e' he' m m'' hm hm'' _ _
      obtain rfl := List.mem_singleton.mp he'
      obtain rfl := Packet.publish.inj hm''
      rw [Session.packetId_eq hwell (mem_cut hfound)]
      exact ⟨log, [], rfl, List.not_mem_nil⟩
  · rw [hroute]
    exact hsub (List.Sublist.refl _) hfree

/-- A new connection queues PUBREL for such messages in this order. -/
theorem Succession.pairwise_resume (h : Succession log core) (hwell : core.session.WellFormed)
    (hkept : core.settings.cleanSession = false) (now : Nat) :
    (core.resume now).1.pending.Pairwise fun p q => ∀ i j m m',
      p = .pubRel i → q = .pubRel j →
      ⟨⟨.publish, i⟩, .publish m⟩ ∈ core.session.sent → Log.Receipted log m →
      ⟨⟨.publish, j⟩, .publish m'⟩ ∈ core.session.sent → Log.Receipted log m' →
      Log.LaterReceipt log i j := by
  have hrequest : ∀ q ∈ core.pending.filter Packet.isRequest, ∀ i, q ≠ .pubRel i := by
    rintro q hq i rfl
    cases (List.mem_filter.mp hq).2
  rw [resume_kept core now hkept]
  refine List.pairwise_append.mpr ⟨List.pairwise_map.mpr ?_, ?_, ?_⟩
  · refine h.order.imp_of_mem fun {e e'} he he' hbefore i j m m' hrel hrel' hm hanswered hm'
      hanswered' => ?_
    -- PUBREL stands for the message under its identifier.
    have hpacket : ∀ {e : Exchange} {k : UInt16} {m : Message}, e ∈ core.session.sent →
        core.session.redelivery e = .pubRel k →
        ⟨⟨.publish, k⟩, .publish m⟩ ∈ core.session.sent → e.packet = .publish m := by
      intro e k m he hrel hm
      have hkey := Session.key_of_redelivery hwell he hrel
      rw [List.inj_on_of_nodup_map hwell.sent_nodup he hm hkey]
    have hordered := hbefore m m' (hpacket he hrel hm) (hpacket he' hrel' hm') hanswered hanswered'
    rw [Session.packetId_eq hwell hm, Session.packetId_eq hwell hm'] at hordered
    exact hordered
  · refine List.pairwise_of_forall_mem_list fun p hp q _ i j m m' hrel => ?_
    exact absurd hrel (hrequest p hp i)
  · intro p _ q hq i j m m' _ hrel
    exact absurd hrel (hrequest q hq j)

end Core

namespace Client

/-- Messages are kept in this order while no write times out, no connection is clean,
and there is room. -/
theorem Beats.succession {P : Action → Prop} {start core : Core} {log : List Event} {s : Standing}
    (h : Beats P .resting start log s core) (hidentified : start.Identified)
    (hkept : start.settings.cleanSession = false) (htimely : Log.Timely log)
    (hroomy : Log.RoomyAfter start.inFlight.length log) : core.Succession log := by
  induction h with
  | refl => exact Core.succession_nil start
  | @snoc a s s' core core' log events hbeats _ hbeat ih =>
      have hbefore := (Log.timely_append_iff.mp htimely).1
      have hsuccession := ih hbefore (Log.always_append_iff.mp hroomy).1
      have hwell := Core.wellFormed_moves hidentified.wellFormed hbeats.moves
      by_cases hrec : ∃ i, .received (.pubRec i) ∈ events
      · obtain ⟨i, hrec⟩ := hrec
        obtain ⟨rfl, hmove⟩ := hbeat.route_of_received hrec
        have hempty : core.pending = [] := hbeats.prompt hbefore
        have hmoves := hbeats.moves.snoc hmove
        obtain ⟨rfl, rfl⟩ := Core.eq_of_pubRec hwell hmove hrec
        -- The queue was empty, so there is nothing in it but PUBREL now.
        have hwaiting : ∀ q ∈ (core.route (.pubRec i)).core.pending, q.awaitsAnswer = false := by
          intro q hq
          rcases Core.route_pubRec_cases hwell i with ⟨_, _, _, -, -, hpending, -⟩ | ⟨-, hroute⟩
          · rw [hpending, hempty] at hq
            rw [List.mem_singleton.mp hq]
            rfl
          · rw [hroute, hempty] at hq
            cases hq
        refine ⟨fun m hawaits hreceipted => ?_, hsuccession.order_pubRec hwell i⟩
        have htracked := Core.tracked_of_receipted hidentified hkept hmoves hroomy hwaiting hawaits
          hreceipted
        exact ⟨htracked, hsuccession.isReleased_pubRec hwell hawaits hreceipted htracked⟩
      · exact Core.succession_moves hsuccession hwell (Core.cleanSession_moves hbeats.moves hkept)
          hbeat.moves fun i hmem => hrec ⟨i, hmem⟩

end Client

end Mqtt
