import Mqtt.Proofs.Client.Flush
import Mqtt.Proofs.Client.Report
import Mqtt.Proofs.Client.Roll
import Mqtt.Proofs.Client.Stream

/-!
# `Mqtt.Proofs.Client.Parting`: a graceful disconnect writes what waits

A client that is told to disconnect passes over its queue before it tries DISCONNECT. It
has just passed over it, if the loop was at the top.

* `Core.tracked_of_work`: every request that a pass writes is tracked.
* `Rolled.written_of_flushed`: where nothing waits, every request that was accepted has
  been written.
* `Client.queue_before_signal`: what waits when the loop sees the signal.
* `Client.disconnect_flushes`: what is written, what remains, and what the application is
  told.
-/

set_option autoImplicit false

namespace Mqtt

namespace Core

/-! ### What is written is tracked -/

/-- Work on the queue takes nothing out of the session. -/
theorem sent_subset_of_work {core core' : Core} {events : List Event}
    (hwell : core.session.WellFormed) (hmove : Move false core events core')
    (hwork : ∀ e ∈ events, e.isWork = true) : core.session.sent ⊆ core'.session.sent := by
  cases hmove.effect hwell with
  | aside hbooks => rw [show core'.session = core.session from congrArg Books.session hbooks]; simp
  | track => simp
  | route p handler => cases hwork _ List.mem_cons_self
  | _ => exact fun _ he => he

/-- Every request that work on the queue writes is tracked after it, if there is room. -/
theorem tracked_of_work {core core' : Core} {events : List Event} (h : core.Identified)
    (hmoves : Moves false core events core') (hwork : ∀ e ∈ events, e.isWork = true)
    (hroomy : Log.RoomyAfter core.inFlight.length events) :
    ∀ p ∈ Log.transmitted events, p.awaitsAnswer = true →
      ∃ e ∈ core'.session.sent, e.packet = p := by
  induction hmoves with
  | refl => simp [Log.transmitted]
  | snoc hmoves hmove ih =>
      intro p hp hawaits
      obtain ⟨hbefore, hlater⟩ := List.forall_mem_append.mp hwork
      have hroomy' := (Log.always_append_iff.mp hroomy).1
      have hidentified := (tallied_moves h hmoves hroomy').identified
      rw [Log.transmitted_append, List.mem_append] at hp
      rcases hp with hp | hp
      · obtain ⟨e, he, hpacket⟩ := ih hbefore hroomy' p hp hawaits
        exact ⟨e, sent_subset_of_work hidentified.wellFormed hmove hlater he, hpacket⟩
      · exact wrote_move hidentified.wellFormed hidentified.distinct hmove
          (Log.mem_transmitted_iff.mp hp) hawaits

end Core

/-! ### Every request by its number -/

/-- A request that waits is written, or still waits. One that gets a number waits. -/
theorem Roll.Step.covers {core core' : Core} {s : Standing} {roll roll' : Roll}
    {added : List (Event × Nat)} (h : Step core core' s roll added roll') :
    (∀ n ∈ roll.waiting.map Prod.snd,
      n ∈ Log.numbers added ∨ n ∈ roll'.waiting.map Prod.snd) ∧
    ∀ n, roll.next ≤ n → n < roll'.next → n ∈ roll'.waiting.map Prod.snd := by
  cases h with
  | settle | release => exact ⟨fun n hn => .inr hn, fun n hle hlt => by simp at hlt; omega⟩
  | queue =>
      refine ⟨fun n hn => .inr (by simp [hn]), fun n hle hlt => ?_⟩
      obtain rfl : n = roll.next := by simp at hlt; omega
      simp
  | @write _ _ front back p k rest new hwaiting hfront hrequest hquiet hnew =>
      refine ⟨fun n hn => ?_, fun n hle hlt => by simp at hlt; omega⟩
      rw [Log.numbers_wrote hrequest]
      rw [hwaiting] at hn
      simp only [List.map_append, List.map_cons, List.mem_append, List.mem_cons] at hn ⊢
      tauto
  | redeliver =>
      refine ⟨fun n hn => .inr ?_, fun n hle hlt => by simp at hlt; omega⟩
      rw [List.map_append]
      exact List.mem_append_right _ hn

namespace Rolled

variable {start core : Core} {log : List (Event × Nat)} {s : Standing} {roll : Roll}

/-- Every request that was queued has been written, or it waits. -/
theorem covers (h : Rolled start log s core roll) :
    ∀ n, start.session.sent.length ≤ n → n < roll.next →
      n ∈ Log.numbers log ∨ n ∈ roll.waiting.map Prod.snd := by
  induction h with
  | start => exact fun n hle hlt => absurd hlt (Nat.not_lt.mpr hle)
  | @step a s s' core core' log added roll roll' hrolled hbeat hstep hof ih =>
      intro n hle hlt
      obtain ⟨hwaiting, hnew⟩ := hstep.covers
      rw [Log.numbers_append, List.mem_append]
      rcases Nat.lt_or_ge n roll.next with hold | hnext
      · rcases ih n hle hold with hwritten | hwaits
        · exact .inl (.inl hwritten)
        · exact (hwaiting n hwaits).imp_left .inr
      · exact .inr (hnew n hnext hlt)

/-- What is written for a number is the packet of this request. -/
theorem asked_of_written (h : Rolled start log s core roll) (hempty : start.pending = [])
    (hwell : start.session.WellFormed) {p : Packet} {n : Nat}
    (hwrote : (.wrote p none, n) ∈ log) (hrequest : p.isRequest = true) :
    (Log.asked start log)[n]? = some p.fresh := by
  obtain ⟨before, after, rfl⟩ := List.append_of_mem hwrote
  obtain ⟨tried, core₀, roll₀, front, back, hrolled₀, hwaiting, -⟩ :=
    h.before_write before p n after rfl hrequest
  have hmem : (p, n) ∈ roll₀.waiting := by
    rw [hwaiting]
    simp
  have hasked :=
    (hrolled₀.sound hempty hwell).asked _ (Roll.mem_entries_of_waiting hmem)
  rw [Log.asked_append, List.getElem?_append_left hasked.lt, hasked.1, Packet.fresh_fresh]

/-- Where nothing waits, every request that was accepted has been written. -/
theorem written_of_flushed (h : Rolled start log s core roll) (hempty : start.pending = [])
    (hinbox : start.inbox = []) (hwell : start.session.WellFormed)
    (hpending : core.pending = []) (hqueued : core.inbox = []) {i : Nat} {r : Request}
    (haccepted : (Log.accepted (log.map Prod.fst))[i]? = some r) :
    ∃ p, (.wrote p none, start.session.sent.length + i) ∈ log ∧ p.request? = some r.bare := by
  -- The packet that was queued for the request.
  obtain ⟨q, hq, hbare⟩ : ∃ q, (Log.queued (log.map Prod.fst))[i]? = some q ∧
      q.request? = some r.bare := by
    have hinboxes := congrArg (·[i]?) (Core.inbox_moves hwell h.beats.moves)
    simpa [hinbox, hqueued, haccepted] using hinboxes
  have hasked : (Log.asked start log)[start.session.sent.length + i]? = some q := by
    rw [Log.asked, List.getElem?_append_right (by simp)]
    simpa using hq
  -- It was written, because it does not wait.
  have hnumber : start.session.sent.length + i ∈ Log.numbers log := by
    have hlt := (List.getElem?_eq_some_iff.mp hasked).1
    rw [← (h.sound hempty hwell).next] at hlt
    refine (h.covers _ (Nat.le_add_right _ _) hlt).resolve_right ?_
    have hnone : roll.waiting.map Prod.fst = [] := by rw [(h.of hempty).waiting, hpending]; rfl
    simp [List.map_eq_nil_iff.mp hnone]
  obtain ⟨⟨e, n⟩, hmem, rfl⟩ := List.mem_map.mp hnumber
  obtain ⟨hmem, hwrites⟩ := List.mem_filter.mp hmem
  cases e with
  | wrote p failure =>
      cases failure with
      | none =>
          refine ⟨p, hmem, ?_⟩
          have hsame := (h.asked_of_written hempty hwell hmem hwrites).symm.trans hasked
          rw [← hbare, ← Option.some.inj hsame]
          cases p <;> rfl
      | some failure => cases hwrites
  | _ => cases hwrites

end Rolled

/-- So every log of a client that has nothing left to write can be attributed. -/
theorem Client.Beats.written_of_flushed {P : Action → Prop} {start core : Core}
    {log : List Event} {s : Standing} (h : Client.Beats P .resting start log s core)
    (hempty : start.pending = []) (hinbox : start.inbox = []) (hwell : start.session.WellFormed)
    (hpending : core.pending = []) (hqueued : core.inbox = []) :
    ∃ attributed : List (Event × Nat), attributed.map Prod.fst = log ∧
      (∀ p n, (.wrote p none, n) ∈ attributed → p.isRequest = true →
        (Log.asked start attributed)[n]? = some p.fresh) ∧
      ∀ i r, (Log.accepted log)[i]? = some r →
        ∃ p, (.wrote p none, start.session.sent.length + i) ∈ attributed ∧
          p.request? = some r.bare := by
  obtain ⟨attributed, roll, rfl, hrolled⟩ := h.rolled hempty hwell
  exact ⟨attributed, rfl, fun p n => hrolled.asked_of_written hempty hwell,
    fun i r => hrolled.written_of_flushed hempty hinbox hwell hpending hqueued⟩

/-! ### Parting -/

namespace Core

variable {core core' : Core} {events : List Event} {failure : Option ClientError}

/-- Work on a queue that holds no DISCONNECT writes none. -/
theorem Worked.disconnect_not_mem (h : Worked core core' events failure)
    (hinner : ∀ p ∈ core.pending, p.isInner = true) (outcome : Option ClientError) :
    .wrote .disconnect outcome ∉ events := by
  intro hmem
  rcases h.written _ outcome hmem with hpending | hrequest
  · cases hinner _ hpending
  · cases hrequest

/-- A write that fails for good ends the work. -/
theorem Worked.failed (h : Worked core core' events failure) {p : Packet} {reason : ClientError}
    (hp : .wrote p (some reason) ∈ events) (hfatal : reason.isTimeout = false) :
    failure = some reason := by
  have hfault := Log.mem_faults_iff.mpr ⟨p, hp, hfatal⟩
  rw [h.faults] at hfault
  exact Option.mem_toList.mp hfault

/-- Nothing else ends it. -/
theorem Worked.served (h : Worked core core' events failure)
    (htimeouts : ∀ p reason, .wrote p (some reason) ∈ events → reason.isTimeout = true) :
    failure = none := by
  refine Option.eq_none_iff_forall_ne_some.mpr fun reason hfailed => ?_
  have hfault : reason ∈ Log.faults events := by simp [h.faults, hfailed]
  obtain ⟨p, hp, hfatal⟩ := Log.mem_faults_iff.mp hfault
  cases hfatal.symm.trans (htimeouts p reason hp)

/-- Parting is a pass over the queue. DISCONNECT is tried after it, unless a write fails
for good. -/
theorem part_split (core : Core) :
    ∃ parting, core.part.2.1 = core.serve.2.1 ++ parting ∧
      core.part.1.books = core.serve.1.books ∧
      ((∀ p reason, .wrote p (some reason) ∈ core.serve.2.1 → reason.isTimeout = true) →
        core.serve.2.2 = none ∧ parting = [.wrote .disconnect core.part.2.2]) ∧
      (∀ p reason, .wrote p (some reason) ∈ core.serve.2.1 → reason.isTimeout = false →
        core.part.2.2 = some reason ∧ parting = []) := by
  have hworked := core.worked_serve
  rcases core.part_cases with ⟨reason, hfailed, hpart⟩ | ⟨hserved, hpart⟩
  · refine ⟨[], by simp [hpart], by simp [hpart], fun htimeouts => ?_,
      fun p reason' hp hfatal => ?_⟩
    · cases hfailed.symm.trans (hworked.served htimeouts)
    · have hsame := hfailed.symm.trans (hworked.failed hp hfatal)
      exact ⟨by simpa [hpart] using hsame, rfl⟩
  · refine ⟨[.wrote .disconnect core.part.2.2], by simp [hpart], ?_, fun _ => ⟨hserved, rfl⟩,
      fun p reason hp hfatal => ?_⟩
    · rw [hpart]
      rfl
    · cases hserved.symm.trans (hworked.failed hp hfatal)

end Core

namespace Client

variable {c : Client} {core signal : Core}

/-- A loop sees the signal at once, or after it served its queue. -/
theorem before_signal (hcore : c.loop.core? = some core) (hsignal : c.signalled? = some signal) :
    (c.loop = .running .parked core ∧ c.unsignalled = [] ∧ signal = core) ∨
    (c.loop = .running .top core ∧ c.unsignalled = core.serve.2.1 ∧ signal = core.serve.1 ∧
      core.serve.2.2 = none) := by
  unfold signalled? at hsignal
  unfold unsignalled
  cases hloop : c.loop with
  | running phase core₀ =>
      rw [hloop] at hcore hsignal
      obtain rfl : core₀ = core := Option.some.inj hcore
      cases phase with
      | parked => exact .inl ⟨rfl, rfl, (Option.some.inj hsignal).symm⟩
      | top =>
          obtain ⟨hserved, hsignal⟩ := Option.ite_none_right_eq_some.mp hsignal
          exact .inr ⟨rfl, rfl, (Option.some.inj hsignal).symm,
            Option.isNone_iff_eq_none.mp hserved⟩
  | _ =>
      rw [hloop] at hsignal
      cases hsignal

/-- What waits when the loop sees the signal is what waited before and was not written. -/
theorem queue_before_signal (hcore : c.loop.core? = some core)
    (hsignal : c.signalled? = some signal) :
    (Log.queued c.unsignalled).map Packet.request? ++ signal.inbox.map (some ·.bare)
      = core.inbox.map (some ·.bare) ∧
    (core.pending ++ Log.queued c.unsignalled).Perm
      (Log.transmitted c.unsignalled ++ signal.pending) ∧
    (Log.unwritten c.unsignalled = [] →
      core.pending ++ Log.queued c.unsignalled
        = Log.transmitted c.unsignalled ++ signal.pending) ∧
    Core.Worked core signal c.unsignalled none := by
  rcases before_signal hcore hsignal with ⟨-, hnone, rfl⟩ | ⟨-, hevents, rfl, hserved⟩
  -- A parked loop sees the signal at once, so nothing has changed.
  · rw [hnone]
    exact ⟨rfl, by simp [Log.queued, Log.transmitted], by simp [Log.queued, Log.transmitted],
      rfl, by simp, rfl, by simp, fun p hp => .inl hp⟩
  -- A loop at the top passes over its queue first, and what the pass leaves is what waits.
  · have hflushed := core.flushed_serve
    rw [hserved] at hflushed
    obtain ⟨hhanded, hpending⟩ := hflushed.of_served
    have hworked := core.worked_serve
    rw [hserved] at hworked
    rw [hevents]
    refine ⟨?_, ?_, fun hnone => ?_, hworked⟩
    · rw [hflushed.queued, hflushed.inbox, List.map_nil, List.append_nil]
    · rw [hhanded, hpending]
      exact Log.handed_perm _
    · rw [hhanded, hpending, hnone, List.append_nil, Log.transmitted_eq_handed hnone]

/-- A client whose loop runs stands where the loop does. -/
theorem At.eq_of_running {s : Standing} {phase : Phase} (h : c.At s core)
    (hloop : c.loop = .running phase core) :
    s = match phase with
      | .top => .working 0
      | .parked => .parked := by
  cases h with
  | resting hrest => simp [hloop] at hrest
  | top htop | parked htop =>
      rw [htop] at hloop
      cases hloop
      rfl
  | lost _ hlost => simp [hloop, Loop.core?] at hlost

/-- A loop that sees the signal is about to serve its queue once more. -/
theorem beats_unsignalled {P : Action → Prop} {a : Action} (ha : P a) {s : Standing}
    (h : c.At s core) (hcore : c.loop.core? = some core) (hsignal : c.signalled? = some signal) :
    Beats P s core c.unsignalled (.working 0) signal := by
  rcases before_signal hcore hsignal with ⟨hloop, hnone, rfl⟩ | ⟨hloop, hevents, rfl, hserved⟩
  · obtain rfl := h.eq_of_running hloop
    rw [hnone]
    exact .single ha (.wake signal)
  · obtain rfl := h.eq_of_running hloop
    have hserve := beats_serve ha core
    rw [hserved] at hserve
    have hparked := (hserve.snoc ha (.park core.serve.1)).snoc ha (.wake core.serve.1)
    rw [List.append_nil, List.append_nil, ← hevents] at hparked
    exact hparked

/-- Then it serves its queue. -/
theorem beats_signalled {P : Action → Prop} {a : Action} (ha : P a) {s : Standing}
    (h : c.At s core) (hcore : c.loop.core? = some core) (hsignal : c.signalled? = some signal) :
    Beats P s core (c.unsignalled ++ signal.serve.2.1)
      (Standing.unless (.working signal.serve.1.pending.length) signal.serve.2.2)
      signal.serve.1 :=
  (beats_unsignalled ha h hcore hsignal).trans (beats_serve ha signal)

/-- A pass that can write everything empties the queue, in order. -/
theorem queue_written (hcore : c.loop.core? = some core) (hsignal : c.signalled? = some signal)
    (hserved : signal.serve.2.2 = none) (hnone : Log.unwritten signal.serve.2.1 = []) :
    signal.serve.1.pending = [] ∧
    Log.transmitted signal.serve.2.1 = signal.pending ++ Log.queued signal.serve.2.1 ∧
    (Log.transmitted (c.unsignalled ++ signal.serve.2.1)).Perm
      (core.pending ++ Log.queued (c.unsignalled ++ signal.serve.2.1)) ∧
    (Log.unwritten c.unsignalled = [] →
      Log.transmitted (c.unsignalled ++ signal.serve.2.1)
        = core.pending ++ Log.queued (c.unsignalled ++ signal.serve.2.1)) := by
  have hpass := signal.flushed_serve
  rw [hserved] at hpass
  obtain ⟨hhanded, hpending⟩ := hpass.of_served
  obtain ⟨-, hleft, hinorder, -⟩ := queue_before_signal hcore hsignal
  have htransmitted : Log.transmitted signal.serve.2.1
      = signal.pending ++ Log.queued signal.serve.2.1 := by
    rw [Log.transmitted_eq_handed hnone, hhanded]
  refine ⟨hpending.trans hnone, htransmitted, ?_, fun hfirst => ?_⟩ <;>
    rw [Log.transmitted_append, Log.queued_append, htransmitted, ← List.append_assoc,
      ← List.append_assoc]
  · exact (hleft.append_right _).symm
  · rw [hinorder hfirst]

/-- The requests that are written until the end of the pass are tracked. -/
theorem tracked_of_signalled? {s : Standing} {resumed : Nat} {log : List Event}
    (h : Core.Tallied resumed log core) (hat : c.At s core) (hcore : c.loop.core? = some core)
    (hsignal : c.signalled? = some signal)
    (hroomy : Log.RoomyAfter resumed (log ++ (c.unsignalled ++ signal.serve.2.1))) :
    ∀ p ∈ Log.transmitted (c.unsignalled ++ signal.serve.2.1), p.awaitsAnswer = true →
      ∃ e ∈ signal.serve.1.session.sent, e.packet = p := by
  obtain ⟨-, -, -, hbefore⟩ := queue_before_signal hcore hsignal
  have hbeats := beats_signalled (P := (· = .disconnect true)) rfl hat hcore hsignal
  exact Core.tracked_of_work h.identified hbeats.moves_of_action
    (hbefore.trans signal.worked_serve).work (h.roomyAfter hroomy)

/-- A loop that sees the signal parts, and then closes the transport and tells the
application how it parted. -/
theorem disconnect_of_signalled? (hsignal : c.signalled? = some signal) :
    (c.disconnect true).2.1 = c.unsignalled ++ signal.part.2.1
        ++ [.closed, c.notification (.disconnected signal.part.2.2)] ∧
      (c.disconnect true).1.loop
        = if c.handlers.survive (.disconnected signal.part.2.2) then .idle signal.part.1.close
          else .gone := by
  obtain ⟨hevents, hclient⟩ := (c.parted true).of_signalled? hsignal
  rw [hevents, hclient, collect_finish, List.append_assoc]
  exact ⟨rfl, rfl⟩

/-- A run that ends by disconnecting has room for the requests of the pass. -/
theorem roomyAfter_of_signalled? {as : List Action} {resumed : Nat}
    (hsignal : (c.run as).1.signalled? = some signal)
    (hroomy : Log.RoomyAfter resumed (c.run (as ++ [.disconnect true])).2) :
    Log.RoomyAfter resumed
      ((c.run as).2 ++ ((c.run as).1.unsignalled ++ signal.serve.2.1)) := by
  obtain ⟨parting, hpart, -⟩ := signal.part_split
  have hlog : (c.run (as ++ [.disconnect true])).2
      = (c.run as).2 ++ ((c.run as).1.disconnect true).2.1 := by
    rw [run_append]
    show (c.run as).2 ++ (((c.run as).1.disconnect true).2.1 ++ []) = _
    rw [List.append_nil]
  rw [hlog, (disconnect_of_signalled? hsignal).1, hpart, ← List.append_assoc,
    ← List.append_assoc, ← List.append_assoc, List.append_assoc] at hroomy
  rw [← List.append_assoc]
  exact (Log.always_append_iff.mp hroomy).1

/-- Graceful disconnecting writes what waits. If the loop sees the signal, it passes over
its queue, with the requests that are not queued yet behind it; a loop that is at the top
has done so before. There is room for these requests. The hypothesis on the session holds
of an empty one, and of every one that such a client leaves.

* If no write fails from the signal on, everything that waits is written before
  DISCONNECT, in order, and nothing waits any more. If none failed before the signal
  either, the order is that of the queue when the client was told to disconnect. The
  requests among all this that have to be answered are tracked, and every request that
  the client ever accepted has been written.
* If no write of the pass fails for good, DISCONNECT is tried. The packets remain whose
  writes timed out.
* If one fails for good, it is what the application is told. DISCONNECT is not tried, and
  all that was not written remains. -/
theorem disconnect_flushes (settings : Settings) {s : Session} (link : Link) (as : List Action)
    (hs : Resumable s) {core signal : Core}
    (hcore : ((new settings s link).run as).1.loop.core? = some core)
    (hsignal : ((new settings s link).run as).1.signalled? = some signal)
    (hroomy : Log.RoomyAfter s.sent.length
      ((new settings s link).run (as ++ [.disconnect true])).2) :
    let c := ((new settings s link).run as).1
    let log := ((new settings s link).run as).2
    ∃ pass parting reported last,
      (c.step (.disconnect true)).2.1 = c.unsignalled ++ (pass ++ parting)
        ++ [.closed, c.notification (.disconnected reported)] ∧
      (c.step (.disconnect true)).1.loop
        = (if c.handlers.survive (.disconnected reported) then .idle last else .gone) ∧
      (∀ failure, .wrote .disconnect failure ∉ c.unsignalled ++ pass) ∧
      (Log.queued (c.unsignalled ++ pass)).map Packet.request? = core.inbox.map (some ·.bare) ∧
      last.inbox = [] ∧
      ((∀ p failure, .wrote p (some failure) ∉ pass ++ parting) →
        parting = [.wrote .disconnect none] ∧ reported = none ∧ last.pending = [] ∧
        Log.transmitted pass = signal.pending ++ Log.queued pass ∧
        (Log.transmitted (c.unsignalled ++ pass)).Perm
          (core.pending ++ Log.queued (c.unsignalled ++ pass)) ∧
        ((∀ p failure, .wrote p (some failure) ∉ c.unsignalled) →
          Log.transmitted (c.unsignalled ++ pass)
            = core.pending ++ Log.queued (c.unsignalled ++ pass)) ∧
        (∀ p ∈ core.pending ++ Log.queued (c.unsignalled ++ pass), p.awaitsAnswer = true →
          ∃ e ∈ last.session.sent, e.packet = p) ∧
        ∃ attributed : List (Event × Nat),
          attributed.map Prod.fst = log ++ (c.unsignalled ++ pass) ∧
          (∀ p n, (.wrote p none, n) ∈ attributed → p.isRequest = true →
            (Log.asked (.new settings s link 0) attributed)[n]? = some p.fresh) ∧
          ∀ i r, (Log.accepted log)[i]? = some r →
            ∃ p, (.wrote p none, s.sent.length + i) ∈ attributed ∧
              p.request? = some r.bare) ∧
      ((∀ p failure, .wrote p (some failure) ∈ pass → failure.isTimeout = true) →
        parting = [.wrote .disconnect reported] ∧
        Log.handed pass = signal.pending ++ Log.queued pass ∧
        last.pending = Log.unwritten pass) ∧
      (∀ p reason, .wrote p (some reason) ∈ pass → reason.isTimeout = false →
        parting = [] ∧ reported = some reason ∧
        ∃ rest, signal.pending ++ Log.queued pass = Log.handed pass ++ rest ∧
          last.pending = Log.unwritten pass ++ rest) := by
  intro c log
  obtain ⟨standing, core', hbeats, hat⟩ :=
    beats_run as (show (new settings s link).At .resting _ from .resting (Or.inl rfl))
  obtain rfl := hat.eq_core hcore
  have hidentified := hs.identified settings link
  have hpass := signal.flushed_serve
  obtain ⟨hevents, hlast⟩ := disconnect_of_signalled? hsignal
  obtain ⟨hinbox, -, -, hbefore⟩ := queue_before_signal hcore hsignal
  obtain ⟨parting, hpart, hbooks, hserved, hfailed⟩ := signal.part_split
  have hpending : signal.part.1.close.pending = signal.serve.1.pending :=
    congrArg Core.Books.pending hbooks
  rw [hpart] at hevents
  refine ⟨signal.serve.2.1, parting, signal.part.2.2, signal.part.1.close, hevents, hlast, ?_, ?_,
    ?_, ?_, ?_, ?_⟩
  -- A queue holds no DISCONNECT, so none is tried before the loop parts.
  · exact (hbefore.trans signal.worked_serve).disconnect_not_mem
      (Core.inner_moves hidentified.wellFormed hbeats.moves (by simp [Core.new]))
  · rw [Log.queued_append, List.map_append, hpass.queued]
    exact hinbox
  · exact (congrArg Core.Books.inbox hbooks).trans hpass.inbox
  · -- No write fails from the signal on.
    intro hwrites
    have hwrites' : ∀ p failure, .wrote p (some failure) ∉ signal.serve.2.1 :=
      fun p failure hmem => hwrites p failure (List.mem_append_left _ hmem)
    obtain ⟨hnone, rfl⟩ := hserved fun p failure hmem => absurd hmem (hwrites' p failure)
    have hreported : signal.part.2.2 = none := by
      refine Option.eq_none_iff_forall_ne_some.mpr fun failure hfailure => ?_
      exact hwrites .disconnect failure (by simp [hfailure])
    -- The pass empties the queue, which is what the rest follows from.
    obtain ⟨hempty, htransmitted, hperm, hinorder⟩ :=
      queue_written hcore hsignal hnone (Log.unwritten_eq_nil hwrites')
    refine ⟨by rw [hreported], hreported, hpending.trans hempty, htransmitted, hperm,
      fun hfirst => hinorder (Log.unwritten_eq_nil hfirst), ?_, ?_⟩
    -- Tracking cannot fail, because the requests in flight are told apart.
    · intro p hp hawaits
      have hroomy' := roomyAfter_of_signalled? hsignal hroomy
      rw [← Core.length_inFlight_new settings s link 0] at hroomy'
      have htallied := Core.tallied_moves hidentified hbeats.moves
        (Log.always_append_iff.mp hroomy').1
      rw [show signal.part.1.close.session = signal.serve.1.session from
        congrArg Core.Books.session hbooks]
      exact tracked_of_signalled? htallied hat hcore hsignal hroomy' p (hperm.mem_iff.mpr hp)
        hawaits
    -- Nothing is left in the inbox or in the queue, so every accepted request was written.
    · have hchain := hbeats.trans
        (beats_signalled (a := .disconnect true) trivial hat hcore hsignal)
      obtain ⟨attributed, hlog, hasked, hwritten⟩ :=
        hchain.written_of_flushed rfl rfl hidentified.wellFormed hempty hpass.inbox
      refine ⟨attributed, hlog, hasked, fun i r haccepted => hwritten i r ?_⟩
      rw [Log.accepted_append,
        List.getElem?_append_left (List.getElem?_eq_some_iff.mp haccepted).1]
      exact haccepted
  · -- No write of the pass fails for good.
    intro htimeouts
    obtain ⟨hnone, hdisconnect⟩ := hserved htimeouts
    rw [hnone] at hpass
    obtain ⟨hhanded, hkept⟩ := hpass.of_served
    exact ⟨hdisconnect, hhanded.symm, hpending.trans hkept⟩
  -- A write of the pass fails for good, and the loop parts without a DISCONNECT.
  · intro p reason hp hfatal
    obtain ⟨hreported, hnothing⟩ := hfailed p reason hp hfatal
    obtain ⟨rest, hhanded, hkept, -⟩ := hpass.queue
    exact ⟨hnothing, hreported, rest, hhanded, hpending.trans hkept⟩

/-- A message waits, and another one is asked for, when the client is told to disconnect.
The first write times out. -/
def flushingRun : List Action :=
  [.expect [.ok (.connAck false .accepted)], .connect none, .turn,
    .request (.publish ⟨"a", [1], .atLeastOnce, false, false, 0⟩), .turn,
    .request (.publish ⟨"b", [2], .atMostOnce, false, false, 0⟩), .outcomes [some .timeout]]

/-- The first message is written when the loop has seen the signal, and is tracked. -/
theorem disconnect_flushes_flushingRun :
    ∃ last, (((new default .empty default).run flushingRun).1.step (.disconnect true)).1.loop
        = .idle last ∧
      last.pending = [] ∧ last.inbox = [] ∧
      ∃ e ∈ last.session.sent, e.packet = .publish ⟨"a", [1], .atLeastOnce, false, false, 1⟩ := by
  have hwaits : ((new default .empty default).run flushingRun).1.loop.core?.map Core.pending
      = some [.publish ⟨"a", [1], .atLeastOnce, false, false, 1⟩] := by
    decide
  obtain ⟨core, hcore, hpending⟩ := Option.map_eq_some_iff.mp hwaits
  obtain ⟨signal, hsignal⟩ := Option.isSome_iff_exists.mp
    (show ((new default .empty default).run flushingRun).1.signalled?.isSome = true by decide)
  obtain ⟨pass, parting, reported, last, hevents, hloop, -, -, hinbox, hflushed, -⟩ :=
    disconnect_flushes default default flushingRun .empty hcore hsignal
      (Log.roomyAfter_of_length (by decide))
  have hlog : (((new default .empty default).run flushingRun).1.step (.disconnect true)).2.1
      = ((new default .empty default).run flushingRun).1.unsignalled
        ++ [.wrote (.publish ⟨"a", [1], .atLeastOnce, false, false, 1⟩) none,
          .wrote .disconnect none]
        ++ [.closed, .notified (.disconnected none) none] := by
    decide
  have hwrites : [.wrote (.publish ⟨"a", [1], .atLeastOnce, false, false, 1⟩) none,
      .wrote .disconnect none] = pass ++ parting :=
    List.append_cancel_left (List.append_inj_left' (hlog.symm.trans hevents) rfl)
  obtain ⟨-, rfl, hempty, -, -, -, htracked, -⟩ := hflushed (by rw [← hwrites]; simp)
  have hsurvive : ((new default .empty default).run flushingRun).1.handlers.survive
      (.disconnected none) = true := by
    decide
  refine ⟨last, hloop.trans (if_pos hsurvive), hempty, hinbox, htracked _ ?_ rfl⟩
  rw [hpending]
  simp

end Client

end Mqtt
