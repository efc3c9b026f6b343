import Mqtt.Proofs.Client.Roll
import Mqtt.Proofs.Client.Succession

/-!
# `Mqtt.Proofs.Client.Sequence`: the order in which requests are written

When no write times out, requests are written for the first time in the order in
which they were accepted. On a connection those that are written again come first,
in the same order.

* `Log.Consecutive`: numbers appear for the first time in order.
* `Roll.line`: what is written next on a new connection, which every beat keeps in
  order (`Roll.InOrder`).
* `Client.transmission_ordered`: what it says of runs, together with the order of
  PUBREL packets.
-/

set_option autoImplicit false

namespace Mqtt

namespace Log

/-- Whether numbers appear for the first time in order, without a gap. -/
def Consecutive (ns : List Nat) : Prop :=
  ∀ front n back, ns = front ++ n :: back → n ∉ front → ∀ m, m ∈ front ↔ m < n

namespace Consecutive

variable {ns ms : List Nat} {n m : Nat}

/-- In an empty list no number appears. -/
theorem nil : Consecutive [] := by
  intro front n back h
  cases front <;> cases h

/-- What comes later does not matter to what came before. -/
theorem of_append (h : Consecutive (ns ++ ms)) : Consecutive ns := by
  rintro front n back rfl hnew
  exact h front n (back ++ ms) (by simp) hnew

/-- A number may be added that appeared before, or that is the next one. -/
theorem snoc (h : Consecutive ns) (hnew : n ∉ ns → ∀ m, m ∈ ns ↔ m < n) :
    Consecutive (ns ++ [n]) := by
  intro front k back hsplit hk
  rcases split_append hsplit with ⟨rest, hold, -⟩ | ⟨rest, hfront, hlast⟩
  · exact h front k rest hold hk
  · cases rest with
    | nil =>
        obtain rfl := (List.cons.inj hlast).1
        rw [List.append_nil] at hfront
        subst hfront
        exact hnew hk
    | cons m rest => simp at hlast

/-- Before a number appears, all that are less have appeared. -/
theorem split (h : Consecutive ns) (hn : n ∈ ns) :
    ∃ front back, ns = front ++ n :: back ∧ n ∉ front ∧ ∀ m, m ∈ front ↔ m < n := by
  obtain ⟨front, back, rfl, hfirst⟩ := List.eq_append_cons_of_mem hn
  exact ⟨front, back, rfl, hfirst, h front n back rfl hfirst⟩

/-- Where a number appears, all that are less appear. -/
theorem mem_of_lt (h : Consecutive ns) (hn : n ∈ ns) (hlt : m < n) : m ∈ ns := by
  obtain ⟨front, back, rfl, -, hfront⟩ := h.split hn
  exact List.mem_append_left _ ((hfront m).mpr hlt)

/-- They appear before it. -/
theorem idxOf_lt (h : Consecutive ns) (hn : n ∈ ns) (hlt : m < n) : ns.idxOf m < ns.idxOf n := by
  obtain ⟨front, back, rfl, hfirst, hfront⟩ := h.split hn
  have hm := (hfront m).mpr hlt
  rw [List.idxOf_append_of_mem hm, List.idxOf_append_of_notMem hfirst]
  exact Nat.lt_add_right _ (List.idxOf_lt_length_of_mem hm)

end Consecutive

end Log

namespace Core

/-- What a new connection would leave in the session is left there later too. -/
theorem staysTracked_move {connecting : Bool} {core core' : Core} {events : List Event}
    (h : core.session.WellFormed) (hmove : Move connecting core events core') {e : Exchange}
    (he : e ∈ core.session.sent) (he' : e ∈ core'.session.sent)
    (hstays : core.session.staysTracked e = true) : core'.session.staysTracked e = true := by
  obtain ⟨⟨kind, i⟩, p⟩ := e
  unfold Session.staysTracked at hstays ⊢
  cases p with
  | publish m =>
      obtain rfl : kind = .publish :=
        (ExchangeKey.ofPacket?_eq_some_iff.mp (h.sent_keyed _ he)).1.symm
      exact isReleased_of_tracked h hmove he he' hstays
  | _ => cases hstays

end Core

namespace Client

/-- The mark of a PUBREC stays as long as its message is tracked. -/
theorem Beat.staysTracked {a : Action} {s s' : Standing} {core core' : Core}
    {events : List Event} (h : Beat a s core events s' core') (hwell : core.session.WellFormed)
    {e : Exchange} (he : e ∈ core.session.sent) (he' : e ∈ core'.session.sent)
    (hstays : core.session.staysTracked e = true) : core'.session.staysTracked e = true := by
  have hsame : core'.books = core.books → core'.session.staysTracked e = true := by
    intro hbooks
    rw [show core'.session = core.session from congrArg Core.Books.session hbooks]
    exact hstays
  have hmoved : ∀ {core₁ : Core} {events₁ : List Event}, core₁.session = core.session →
      Core.Move true core₁ events₁ core' → core'.session.staysTracked e = true := by
    intro core₁ events₁ hsession hmove
    rw [← hsession] at hwell he hstays
    exact Core.staysTracked_move hwell hmove he he' hstays
  cases h with
  | quiet hbooks | miss _ hbooks | fail _ hbooks | ping hbooks | pingFail hbooks | leave hbooks
  | finish hbooks => exact hsame hbooks
  | ask | wake | park | stop | attempt => exact hstays
  | queue hinbox => exact hmoved rfl (.queue hinbox)
  | write hpending => exact hmoved rfl (.write hpending)
  | route _ p handler => exact hmoved rfl (.route core p handler)
  | connect _ link now =>
      have hsession : { core with link }.session = core.session := rfl
      exact hmoved hsession (.resume { core with link } now)

end Client

namespace Roll

/-- The numbers of the requests that are written next if a new connection is made, in
this order. -/
def line (roll : Roll) (s : Session) : List Nat :=
  (roll.held.filter fun x => !s.staysTracked x.1).map Prod.snd ++ roll.waiting.map Prod.snd

/-- What the numbers say after a log whose writes did not time out. -/
structure InOrder (log : List (Event × Nat)) (s : Session) (roll : Roll) : Prop where
  line : (roll.line s).Pairwise (· < ·)
  /-- What waits comes after what was written on the same connection. -/
  current : (Log.current log ++ roll.waiting.map Prod.snd).Pairwise (· < ·)
  consecutive : Log.Consecutive (Log.numbers log)
  /-- What was not written waits. -/
  left : ∀ n < roll.next, n ∈ Log.numbers log ∨ n ∈ roll.waiting.map Prod.snd

variable {s : Standing} {core core' start : Core} {log added : List (Event × Nat)}
  {roll roll' : Roll}

/-- The next request to be written is the first of those that were not written yet, or
it was written before. -/
theorem InOrder.first {session : Session} (h : roll.InOrder log session)
    (hsound : roll.Sound start log) {p : Packet} {n : Nat} {back : List (Packet × Nat)}
    (hwaiting : roll.waiting = (p, n) :: back) (hnew : n ∉ Log.numbers log) (m : Nat) :
    m ∈ Log.numbers log ↔ m < n := by
  have hnext : n < roll.next :=
    hsound.lt (p.fresh, n) (mem_entries_of_waiting (by rw [hwaiting]; exact List.mem_cons_self))
  constructor
  · intro hm
    refine Nat.lt_of_le_of_ne (Nat.le_of_not_lt fun hlt => hnew ?_) fun heq => hnew (heq ▸ hm)
    exact h.consecutive.mem_of_lt hm hlt
  · intro hlt
    refine (h.left m (hlt.trans hnext)).resolve_right fun hm => ?_
    -- What waits behind it has a higher number.
    have horder := (List.pairwise_append.mp h.current).2.1
    rw [hwaiting, List.map_cons, List.pairwise_cons] at horder
    rw [hwaiting, List.map_cons, List.mem_cons] at hm
    rcases hm with rfl | hm
    · exact Nat.lt_irrefl _ hlt
    · exact Nat.lt_asymm hlt (horder.1 m hm)

/-- A request that does not stay in the session did not before. -/
theorem filter_staysTracked_sublist {session session' : Session}
    {held held' : List (Exchange × Nat)} (hsub : held'.Sublist held)
    (hstays : ∀ x ∈ held', session.staysTracked x.1 = true → session'.staysTracked x.1 = true) :
    (held'.filter fun x => !session'.staysTracked x.1).Sublist
      (held.filter fun x => !session.staysTracked x.1) := by
  have hfilter : (held'.filter fun x => !session'.staysTracked x.1)
      = (held'.filter fun x => !session.staysTracked x.1).filter
          fun x => !session'.staysTracked x.1 := by
    rw [List.filter_filter]
    refine List.filter_congr fun x hx => ?_
    cases hbefore : session.staysTracked x.1 with
    | true => rw [hstays x hx hbefore]; rfl
    | false => rw [Bool.not_false, Bool.and_true]
  rw [hfilter]
  exact List.filter_sublist.trans (hsub.filter _)

/-- Every request that comes next is one of the roll. -/
theorem Sound.lt_of_mem_line (h : roll.Sound start log) (session : Session) :
    ∀ n ∈ roll.line session, n < roll.next := by
  intro n hn
  rcases List.mem_append.mp hn with hn | hn
  · obtain ⟨⟨e, n⟩, hx, rfl⟩ := List.mem_map.mp hn
    exact h.lt (e.packet.fresh, n)
      (List.mem_append_right _ (List.mem_map.mpr ⟨(e, n), (List.mem_filter.mp hx).1, rfl⟩))
  · obtain ⟨⟨p, n⟩, hx, rfl⟩ := List.mem_map.mp hn
    exact h.lt (p.fresh, n) (mem_entries_of_waiting hx)

section

variable {session session' : Session}

/-- Nothing is queued or written. -/
theorem InOrder.quiet (h : roll.InOrder log session) (hnone : Log.numbers added = [])
    (hwaiting : roll'.waiting = roll.waiting) (hnext : roll'.next = roll.next)
    (hheld : (roll'.held.filter fun x => !session'.staysTracked x.1).Sublist
      (roll.held.filter fun x => !session.staysTracked x.1)) :
    roll'.InOrder (log ++ added) session' := by
  have hcurrent := Log.current_append_sublist log added
  rw [hnone, List.append_nil] at hcurrent
  constructor
  · rw [Roll.line, hwaiting]
    exact h.line.sublist ((hheld.map _).append (List.Sublist.refl _))
  · rw [hwaiting]
    exact h.current.sublist (hcurrent.append (List.Sublist.refl _))
  · rw [Log.numbers_append, hnone, List.append_nil]
    exact h.consecutive
  · rw [Log.numbers_append, hnone, List.append_nil, hwaiting, hnext]
    exact h.left

/-- A request is queued behind the others. -/
theorem InOrder.queue (h : roll.InOrder log session) (hsound : roll.Sound start log) (p : Packet)
    (hheld : (roll.held.filter fun x => !session'.staysTracked x.1).Sublist
      (roll.held.filter fun x => !session.staysTracked x.1)) :
    InOrder (log ++ [(.queued p, 0)]) session' { roll with
      waiting := roll.waiting ++ [(p, roll.next)], next := roll.next + 1 } := by
  have hcurrent : Log.current (log ++ [(.queued p, 0)]) = Log.current log :=
    (Log.current_append (List.forall_mem_singleton.mpr rfl) log).trans (List.append_nil _)
  have hnumbers : Log.numbers (log ++ [(.queued p, 0)]) = Log.numbers log :=
    (Log.numbers_append _ _).trans (List.append_nil _)
  -- Its number is the highest.
  have hlast : ∀ {ns : List Nat}, ns.Pairwise (· < ·) → (∀ n ∈ ns, n < roll.next) →
      (ns ++ [roll.next]).Pairwise (· < ·) := by
    intro ns hns hlt
    refine List.pairwise_append.mpr ⟨hns, List.pairwise_singleton _ _, fun n hn m hm => ?_⟩
    rw [List.mem_singleton.mp hm]
    exact hlt n hn
  constructor
  · rw [Roll.line, List.map_append, ← List.append_assoc]
    refine (hlast h.line (hsound.lt_of_mem_line session)).sublist ?_
    exact ((hheld.map _).append (List.Sublist.refl _)).append (List.Sublist.refl _)
  · rw [hcurrent, List.map_append, ← List.append_assoc]
    refine hlast h.current fun n hn => ?_
    rcases List.mem_append.mp hn with hn | hn
    · exact hsound.below n ((Log.current_sublist log).subset hn)
    · exact hsound.lt_of_mem_line session n (List.mem_append_right _ hn)
  · rw [hnumbers]
    exact h.consecutive
  · intro n hn
    rw [hnumbers, List.map_append]
    rcases Nat.lt_or_eq_of_le (Nat.le_of_lt_succ hn) with hlt | rfl
    · exact (h.left n hlt).imp_right (List.mem_append_left _)
    · exact Or.inr (List.mem_append_right _ List.mem_cons_self)

/-- The first request is written. -/
theorem InOrder.write (h : roll.InOrder log session) (hsound : roll.Sound start log) {p : Packet}
    {n : Nat} {back : List (Packet × Nat)} {new : List (Exchange × Nat)}
    (hwaiting : roll.waiting = (p, n) :: back) (hnumbers : Log.numbers added = [n])
    (hnew : (new.map Prod.snd).Sublist [n])
    (hheld : (roll.held.filter fun x => !session'.staysTracked x.1).Sublist
      (roll.held.filter fun x => !session.staysTracked x.1)) :
    InOrder (log ++ added) session' { roll with waiting := back, held := roll.held ++ new } := by
  have hcurrent := Log.current_append_sublist log added
  rw [hnumbers] at hcurrent
  -- If the number is new to the log, then all smaller ones are in it, so the log stays
  -- consecutive.
  have hfirst := h.first hsound hwaiting
  obtain ⟨hline, hbehind, hconsecutive, hleft⟩ := h
  rw [Roll.line, hwaiting, List.map_cons] at hline
  rw [hwaiting, List.map_cons] at hbehind hleft
  constructor
  · refine hline.sublist ?_
    rw [Roll.line, List.filter_append, List.map_append, List.append_assoc]
    exact (hheld.map _).append (((List.filter_sublist.map _).trans hnew).append
      (List.Sublist.refl (back.map Prod.snd)))
  · refine hbehind.sublist ?_
    rw [← List.singleton_append, ← List.append_assoc]
    exact hcurrent.append (List.Sublist.refl _)
  · rw [Log.numbers_append, hnumbers]
    exact hconsecutive.snoc hfirst
  · intro m hm
    rw [Log.numbers_append, hnumbers, List.mem_append, List.mem_singleton]
    rcases hleft m hm with hwritten | hwaits
    · exact Or.inl (Or.inl hwritten)
    · exact (List.mem_cons.mp hwaits).imp_left Or.inr

/-- What is not released waits again, in front of the others. -/
theorem InOrder.redeliver (h : roll.InOrder log session) (hnone : Log.numbers added = [])
    (hopens : ∃ x ∈ added, x.1.opens = true) (redelivery : Exchange → Packet)
    (hstays : ∀ x ∈ roll.held,
      session.staysTracked x.1 = true → session'.staysTracked x.1 = true) :
    InOrder (log ++ added) session' { roll with
      waiting := (roll.held.filter fun x => !session.staysTracked x.1).map
        (Prod.map redelivery id) ++ roll.waiting
      held := roll.held.filter fun x => session.staysTracked x.1 } := by
  have hwaiting : ((roll.held.filter fun x => !session.staysTracked x.1).map
      (Prod.map redelivery id) ++ roll.waiting).map Prod.snd = roll.line session := by
    rw [List.map_append, List.map_map]
    rfl
  -- What stays in the session is not in the line.
  have hheld : (roll.held.filter fun x => session.staysTracked x.1).filter
      (fun x => !session'.staysTracked x.1) = [] := by
    refine List.filter_eq_nil_iff.mpr fun x hx => ?_
    obtain ⟨hx, hbefore⟩ := List.mem_filter.mp hx
    rw [hstays x hx hbefore]
    exact Bool.false_ne_true
  constructor
  · rw [Roll.line, hheld, hwaiting]
    exact h.line
  · rw [Log.current_append_of_opens hopens hnone, hwaiting]
    exact h.line
  · rw [Log.numbers_append, hnone, List.append_nil]
    exact h.consecutive
  · intro n hn
    rw [Log.numbers_append, hnone, List.append_nil, hwaiting]
    exact (h.left n hn).imp_right (List.mem_append_right _)

end

/-- Every beat of a client whose writes do not time out keeps the order. -/
theorem InOrder.step (h : roll.InOrder log core.session) (hsound : roll.Sound start log)
    (hstep : Step core core' s roll added roll') (hprompt : s.Prompt core)
    (hstays : ∀ x ∈ roll.held, x ∈ roll'.held →
      core.session.staysTracked x.1 = true → core'.session.staysTracked x.1 = true) :
    roll'.InOrder (log ++ added) core'.session := by
  cases hstep with
  | settle hquiet hheld =>
      refine h.quiet (Log.of_not_concernsRequest hquiet).2 rfl rfl ?_
      exact filter_staysTracked_sublist hheld fun x hx => hstays x (hheld.subset hx) hx
  | @queue _ _ p =>
      refine h.queue hsound p (filter_staysTracked_sublist (List.Sublist.refl _) ?_)
      exact fun x hx => hstays x hx hx
  | @write tried _ front back p n rest new hwaiting hfront hrequest hquiet hnew =>
      -- Without timeouts a pass keeps nothing back, so what is written is the first of the
      -- queue.
      obtain rfl : tried = 0 := hprompt
      obtain rfl := List.eq_nil_of_length_eq_zero (Nat.le_zero.mp hfront)
      refine h.write hsound hwaiting ?_ ?_ (filter_staysTracked_sublist (List.Sublist.refl _) ?_)
      · rw [Log.numbers_wrote hrequest, (Log.of_not_concernsRequest hquiet).2]
      · rcases hnew with rfl | ⟨key, rfl⟩
        · exact List.nil_sublist _
        · exact List.Sublist.refl _
      · exact fun x hx => hstays x hx (List.mem_append_left _ hx)
  | @release _ _ _ front back e n hquiet hheld hstays' =>
      refine h.quiet (Log.of_not_concernsRequest hquiet).2 rfl rfl ?_
      -- A released message leaves the line: it stays in the session from now on.
      have hlast : ([(e, n)].filter fun x => !core'.session.staysTracked x.1) = [] := by
        simp [hstays']
      rw [List.filter_append, hlast, List.append_nil]
      have hsub : (front ++ back).Sublist roll.held := by
        rw [hheld]
        exact (List.Sublist.refl _).append (List.sublist_cons_self _ back)
      exact filter_staysTracked_sublist hsub fun x hx =>
        hstays x (hsub.subset hx) (List.mem_append_left _ hx)
  | redeliver hquiet hopens =>
      refine h.redeliver (Log.of_not_concernsRequest hquiet).2 hopens _ fun x hx hbefore => ?_
      exact hstays x hx (List.mem_filter.mpr ⟨hx, hbefore⟩) hbefore

end Roll

/-- The order holds after every log that starts with an empty session and whose writes
did not time out. -/
theorem Rolled.inOrder {start core : Core} {log : List (Event × Nat)} {s : Standing} {roll : Roll}
    (h : Rolled start log s core roll) (hpending : start.pending = [])
    (hwell : start.session.WellFormed) (hsent : start.session.sent = [])
    (htimely : Log.Timely (log.map Prod.fst)) : roll.InOrder log core.session := by
  induction h with
  | start =>
      rw [Roll.start, hsent]
      exact ⟨List.Pairwise.nil, List.Pairwise.nil, Log.Consecutive.nil, fun n hn => by cases hn⟩
  | @step a s s' core core' log added roll roll' hrolled hbeat hstep hof ih =>
      rw [List.map_append] at htimely
      have hbefore := (Log.timely_append_iff.mp htimely).1
      have hof' := hrolled.of hpending
      refine (ih hbefore).step (hrolled.sound hpending hwell) hstep
        (hrolled.beats.prompt hbefore) fun x hx hx' => ?_
      exact hbeat.staysTracked (hrolled.wellFormed hwell)
        (hof'.held ▸ List.mem_map_of_mem hx) (hof.held ▸ List.mem_map_of_mem hx')

namespace Client

/-- The order in which requests are written, in any run that starts with an empty
session, in which no write times out, and that leaves a free identifier whenever
one is needed. Requests have the numbers that they were accepted with.

* A request is written for the first time when all that were accepted before it
  have been written, and none of the others.
* What is written again on a connection comes behind requests only that were written
  on former connections, each for the first time before it.
* Unless the session is clean, a new connection queues PUBREL for the messages that were
  answered with PUBREC after they were written, in the order of the last PUBREC of
  each. -/
theorem transmission_ordered (settings : Settings) (link : Link) (as : List Action)
    (htimely : Log.Timely ((new settings .empty link).run as).2)
    (hroomy : Log.Roomy ((new settings .empty link).run as).2) :
    ((Log.queued ((new settings .empty link).run as).2).map Packet.request?
      <+: (Log.accepted ((new settings .empty link).run as).2).map (some ·.bare)) ∧
    (∃ attributed : List (Event × Nat),
      attributed.map Prod.fst = ((new settings .empty link).run as).2 ∧
      ∀ before p n after, attributed = before ++ (.wrote p none, n) :: after →
        p.isRequest = true →
        (Log.queued (before.map Prod.fst))[n]? = some p.fresh ∧
        (p.awaitsAnswer = true → ∀ later > n,
          (Log.queued (before.map Prod.fst))[later]? ≠ some p.fresh) ∧
        (n ∉ Log.numbers before → ∀ m, m ∈ Log.numbers before ↔ m < n) ∧
        (n ∈ Log.numbers before → p.awaitsAnswer = true ∧ n ∉ Log.current before ∧
          ∀ m ∈ Log.current before, m ∈ Log.former before ∧
            (Log.numbers before).idxOf m < (Log.numbers before).idxOf n)) ∧
    (settings.cleanSession = false → ∀ core opening,
      ((new settings .empty link).run as).1.loop.core? = some core →
      ((new settings .empty link).run as).1.establishes (.connect opening) = true →
      ∃ core', (((new settings .empty link).run as).1.connect opening).1.loop.core? = some core' ∧
        core'.pending.Pairwise fun p q => ∀ i j m m', p = .pubRel i → q = .pubRel j →
          ⟨⟨.publish, i⟩, .publish m⟩ ∈ core.session.sent →
          Log.Receipted ((new settings .empty link).run as).2 m →
          ⟨⟨.publish, j⟩, .publish m'⟩ ∈ core.session.sent →
          Log.Receipted ((new settings .empty link).run as).2 m' →
          Log.LaterReceipt ((new settings .empty link).run as).2 i j) := by
  obtain ⟨standing, last, hbeats, hat⟩ :=
    beats_run as (show (new settings .empty link).At .resting _ from .resting (Or.inl rfl))
  have hidentified := Core.identified_empty settings link 0
  have hroomy' := Log.roomy_iff.mp hroomy
  refine ⟨?_, ?_, ?_⟩
  · exact Core.queued_prefix_accepted hidentified.wellFormed rfl hbeats.moves
  · obtain ⟨attributed, roll, hlog, hrolled⟩ := hbeats.rolled rfl hidentified.wellFormed
    rw [← hlog] at htimely hroomy'
    refine ⟨attributed, hlog, ?_⟩
    intro before p n after hsplit hrequest
    rw [hsplit, List.map_append] at htimely hroomy'
    have hbefore := (Log.timely_append_iff.mp htimely).1
    obtain ⟨tried, core₀, roll₀, front, back, hrolled₀, hwaiting, hfront⟩ :=
      hrolled.before_write before p n after hsplit hrequest
    have hsound := hrolled₀.sound rfl hidentified.wellFormed
    have horder := hrolled₀.inOrder rfl hidentified.wellFormed rfl hbefore
    -- Nothing was passed over, so it is the first that waits.
    obtain rfl : tried = 0 := hrolled₀.beats.prompt hbefore
    obtain rfl := List.eq_nil_of_length_eq_zero (Nat.le_zero.mp hfront)
    have hmem : (p, n) ∈ roll₀.waiting := by
      rw [hwaiting]
      exact List.mem_cons_self
    obtain ⟨hasked, hlast⟩ :=
      (hsound.asked _ (Roll.mem_entries_of_waiting hmem)).of_fresh p.fresh_fresh
    refine ⟨hasked, hlast hidentified (Log.always_append_iff.mp hroomy').1,
      horder.first hsound hwaiting, fun hagain => ?_⟩
    have hapart := hsound.apart _ hmem
    refine ⟨hsound.again _ hmem hagain, hapart, fun m hm => ?_⟩
    have hlt : m < n := by
      have hcurrent := horder.current
      rw [hwaiting] at hcurrent
      exact (List.pairwise_append.mp hcurrent).2.2 m hm n List.mem_cons_self
    have hconsecutive := horder.consecutive
    refine ⟨?_, hconsecutive.idxOf_lt hagain hlt⟩
    rw [← Log.former_append_current] at hconsecutive hagain
    exact hconsecutive.of_append.mem_of_lt
      ((List.mem_append.mp hagain).resolve_right hapart) hlt
  · intro hkept core opening hcore hestablishes
    obtain rfl := hat.eq_core hcore
    have hsuccession := hbeats.succession hidentified hkept htimely hroomy'
    have hwell := Core.wellFormed_moves hidentified.wellFormed hbeats.moves
    have hclean := Core.cleanSession_moves hbeats.moves hkept
    obtain ⟨link', hloop⟩ := connect_establishes hcore hestablishes
    refine ⟨_, by rw [hloop]; rfl, ?_⟩
    have hlinked : Core.Succession _ { core with link := link' } :=
      ⟨hsuccession.tracked, hsuccession.order⟩
    exact hlinked.pairwise_resume hwell hclean _

/-- The second of two level 2 messages is answered first, and a level 1 message is not
answered at all before the connection ends. A level 0 message waits for the next one. -/
def answeringRun : List Action :=
  [.expect [.ok (.connAck false .accepted)], .connect none,
    .request (.publish ⟨"a", [1], .exactlyOnce, false, false, 0⟩),
    .request (.publish ⟨"b", [2], .exactlyOnce, false, false, 0⟩),
    .request (.publish ⟨"c", [3], .atLeastOnce, false, false, 0⟩), .turn,
    .arrive [.ok (.pubRec 2), .ok (.pubRec 1)], .turn, .turn, .turn, .turn, .disconnect false,
    .expect [.ok (.connAck true .accepted)],
    .request (.publish ⟨"d", [4], .atMostOnce, false, false, 0⟩)]

/-- The next connection queues PUBREL for the second message before that for the first.
When it writes the level 0 message, the other three have been written. -/
theorem transmission_ordered_answeringRun :
    (∃ before after : List (Event × Nat),
      (before ++ (.wrote (.publish ⟨"d", [4], .atMostOnce, false, false, 0⟩) none, 3) :: after).map
          Prod.fst = ((new default .empty default).run (answeringRun ++ [.connect none, .turn])).2 ∧
      ∀ m, m ∈ Log.numbers before ↔ m < 3) ∧
    ∃ core', (((new default .empty default).run answeringRun).1.connect none).1.loop.core?
        = some core' ∧
      core'.pending
        = [.publish ⟨"c", [3], .atLeastOnce, false, true, 3⟩, .pubRel 2, .pubRel 1] ∧
      Log.LaterReceipt ((new default .empty default).run answeringRun).2 2 1 := by
  constructor
  · obtain ⟨-, ⟨attributed, hlog, hwrites⟩, -⟩ := transmission_ordered default default
      (answeringRun ++ [.connect none, .turn]) (by decide) (Log.roomy_of_length (by decide))
    have hsplit : attributed.map Prod.fst
        = ((new default .empty default).run (answeringRun ++ [.connect none, .turn])).2.dropLast
          ++ .wrote (.publish ⟨"d", [4], .atMostOnce, false, false, 0⟩) none :: [] := by
      rw [hlog]
      decide
    obtain ⟨before, n, after, rfl, hbefore, -⟩ := Log.exists_split hsplit
    obtain ⟨hasked, -, hfirst, hagain⟩ := hwrites before _ n after rfl rfl
    have hnew : n ∉ Log.numbers before := fun hmem => by cases (hagain hmem).1
    -- It was the fourth that was queued.
    have hqueued : Log.queued ((new default .empty default).run
        (answeringRun ++ [.connect none, .turn])).2.dropLast
        = [.publish ⟨"a", [1], .exactlyOnce, false, false, 1⟩,
          .publish ⟨"b", [2], .exactlyOnce, false, false, 2⟩,
          .publish ⟨"c", [3], .atLeastOnce, false, false, 3⟩,
          .publish ⟨"d", [4], .atMostOnce, false, false, 0⟩] := by
      decide
    rw [hbefore, hqueued] at hasked
    obtain rfl : n = 3 := by
      match n, hasked with
      | 3, _ => rfl
      | 0, h | 1, h | 2, h => exact absurd h (by decide)
      | _ + 4, h => cases h
    exact ⟨before, after, hlog, hfirst hnew⟩
  · have hsent : ((new default .empty default).run answeringRun).1.loop.core?.any
        (fun core =>
          ⟨⟨.publish, 1⟩, .publish ⟨"a", [1], .exactlyOnce, false, false, 1⟩⟩ ∈ core.session.sent ∧
          ⟨⟨.publish, 2⟩, .publish ⟨"b", [2], .exactlyOnce, false, false, 2⟩⟩ ∈ core.session.sent)
        = true := by
      decide
    have hnext : (((new default .empty default).run answeringRun).1.connect
        none).1.loop.core?.map Core.pending
        = some [.publish ⟨"c", [3], .atLeastOnce, false, true, 3⟩, .pubRel 2, .pubRel 1] := by
      decide
    -- Both messages were written before their PUBRECs came.
    have hanswered : Log.Receipted ((new default .empty default).run answeringRun).2
        ⟨"a", [1], .exactlyOnce, false, false, 1⟩ :=
      ⟨((new default .empty default).run answeringRun).2.take 15,
        ((new default .empty default).run answeringRun).2.drop 16,
        (((new default .empty default).run answeringRun).2.take 15).drop 11, by decide,
        ⟨⟨((new default .empty default).run answeringRun).2.take 10, _, by decide, rfl⟩,
          by decide⟩, by decide, by decide⟩
    have hanswered' : Log.Receipted ((new default .empty default).run answeringRun).2
        ⟨"b", [2], .exactlyOnce, false, false, 2⟩ :=
      ⟨((new default .empty default).run answeringRun).2.take 13,
        ((new default .empty default).run answeringRun).2.drop 14,
        (((new default .empty default).run answeringRun).2.take 13).drop 12, by decide,
        ⟨⟨((new default .empty default).run answeringRun).2.take 11, _, by decide, rfl⟩,
          by decide⟩, by decide, by decide⟩
    cases hcore : ((new default .empty default).run answeringRun).1.loop.core? with
    | none =>
        rw [hcore] at hsent
        cases hsent
    | some core =>
        rw [hcore] at hsent
        obtain ⟨hm, hm'⟩ := of_decide_eq_true hsent
        obtain ⟨core', hcore', hpairwise⟩ := (transmission_ordered default default answeringRun
          (by decide) (Log.roomy_of_length (by decide))).2.2 rfl core none hcore (by decide)
        rw [hcore'] at hnext
        have hpending := Option.some.inj hnext
        rw [hpending, List.pairwise_cons, List.pairwise_cons] at hpairwise
        refine ⟨core', hcore', hpending, ?_⟩
        exact hpairwise.2.1 (.pubRel 1) List.mem_cons_self 2 1 _ _ rfl rfl hm' hanswered' hm
          hanswered

end Client

end Mqtt
