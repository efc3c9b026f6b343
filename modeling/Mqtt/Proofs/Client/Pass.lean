import Mqtt.Proofs.Client.Beats
import Mqtt.Proofs.Client.Flush
import Mqtt.Proofs.Client.Identifiers

/-!
# `Mqtt.Proofs.Client.Pass`: a pass over the queue, write by write

A pass offers the packets of the queue to the transport one by one. How each write
would end is known beforehand from the link (`Link.endings`), and the queue with
these endings (`Core.offers`) tells all that the pass does: which packets are handed
over, which are kept, and which are tracked.

* `Core.sendAll_eq`: what a pass comes to, up to the first write that fails for good.
  If the requests in flight are told apart, tracking does not fail.
* `Client.pass_conserves`: what that says of every state that a run reaches.
-/

set_option autoImplicit false

namespace Mqtt

namespace Link

/-- How the writes of some packets would end, one after the other. -/
def endings (l : Link) : List Packet → List (Option ClientError)
  | [] => []
  | p :: ps => (l.write p).1 :: (l.write p).2.endings ps

/-- There is one ending for each write. -/
theorem length_endings (l : Link) (ps : List Packet) : (l.endings ps).length = ps.length := by
  induction ps generalizing l with
  | nil => rfl
  | cons p ps ih => exact congrArg (· + 1) (ih (l.write p).2)

end Link

/-- A packet of a queue, and how its write would end. -/
abbrev Offer := Packet × Option ClientError

namespace Offer

/-- The event of the write. -/
def event (o : Offer) : Event :=
  .wrote o.1 o.2

/-- Whether the packet is written. -/
def written (o : Offer) : Bool :=
  o.2.isNone

/-- Whether time runs out, so that the packet is tried again. -/
def timedOut (o : Offer) : Bool :=
  o.2.any ClientError.isTimeout

/-- Whether the write fails for good, which ends the pass. -/
def fatal (o : Offer) : Bool :=
  o.2.any fun failure => !failure.isTimeout

/-- The packets of some offers. -/
def packets (os : List Offer) : List Packet :=
  os.map Prod.fst

/-- The exchanges that are tracked for the packets that are written: those that have to
be answered. -/
def tracked (os : List Offer) : List Exchange :=
  ((packets (os.filter written)).filter Packet.awaitsAnswer).filterMap fun p =>
    (ExchangeKey.ofPacket? p).map fun key => ⟨key, p⟩

/-- Offers in a row are tracked in their order. -/
theorem tracked_append (os later : List Offer) :
    tracked (os ++ later) = tracked os ++ tracked later := by
  simp [tracked, packets]

end Offer

namespace Core

/-- The queue, with the ending of each write. -/
def offers (core : Core) : List Offer :=
  core.pending.zip (core.link.endings core.pending)

/-- The offers are the queue, and nothing is left out. -/
theorem packets_offers (core : Core) : Offer.packets core.offers = core.pending :=
  List.map_fst_zip (Nat.le_of_eq (core.link.length_endings core.pending).symm)

/-- Whether the requests among some packets, and those that a core tracks, are told
apart by their identifiers. -/
def DistinctWith (core : Core) (ps : List Packet) : Prop :=
  ((ps.filter Packet.awaitsAnswer ++ core.session.sent.map Exchange.packet).map
    Packet.packetId?).Nodup

/-- Requests are still told apart when there is one less. -/
theorem DistinctWith.tail {core : Core} {p : Packet} {ps : List Packet}
    (h : core.DistinctWith (p :: ps)) : core.DistinctWith ps := by
  refine h.sublist (List.Sublist.map _ (List.Sublist.append_right ?_ _))
  exact (List.sublist_cons_self p ps).filter _

/-- The key of a request that waits is free in the session. -/
theorem DistinctWith.free {core : Core} {p : Packet} {ps : List Packet} {key : ExchangeKey}
    (h : core.DistinctWith (p :: ps)) (hwell : core.session.WellFormed)
    (hawaits : p.awaitsAnswer = true) (hkey : ExchangeKey.ofPacket? p = some key) :
    key ∉ Exchange.keys core.session.sent := by
  intro hmem
  obtain ⟨e, he, rfl⟩ := List.mem_map.mp hmem
  have hid := (ExchangeKey.ofPacket?_eq_some_iff.mp hkey).2
  have hsame : e.packet.packetId? = p.packetId? :=
    (Exchange.packetId?_of_mem hwell.sent_keyed he).trans hid.symm
  -- The identifier would stand in front, and among those of the session.
  rw [DistinctWith, List.filter_cons_of_pos hawaits, List.cons_append, List.map_cons,
    List.nodup_cons] at h
  refine h.1 (List.mem_map.mpr ⟨e.packet, List.mem_append_right _ ?_, hsame⟩)
  exact List.mem_map_of_mem he

/-- A request that was tracked is still told apart from the others. -/
theorem DistinctWith.track {core : Core} {p : Packet} {ps : List Packet} {key : ExchangeKey}
    (h : core.DistinctWith (p :: ps)) (hawaits : p.awaitsAnswer = true) :
    DistinctWith { core with
      session := { core.session with sent := core.session.sent ++ [⟨key, p⟩] } } ps := by
  rw [DistinctWith, List.filter_cons_of_pos hawaits] at h
  refine (List.Perm.nodup_iff (List.Perm.map _ ?_)).mp h
  rw [List.map_append, ← List.append_assoc]
  exact (List.perm_append_singleton p _).symm

/-! ### One write -/

/-- The core behind a write, whatever came of it. -/
def written (core : Core) (p : Packet) : Core :=
  { core with link := (core.link.write p).2 }

/-- A write changes nothing of a core but its link. -/
theorem write_eq (core : Core) (p : Packet) :
    core.write p = ((core.link.write p).1, core.written p) :=
  rfl

/-- A write that fails for good ends the pass. -/
theorem sendAll_cons_of_fatal {core : Core} {p : Packet} {failure : ClientError}
    (h : (core.link.write p).1 = some failure) (hfatal : failure.isTimeout = false)
    (ps : List Packet) :
    core.sendAll (p :: ps)
      = ⟨core.written p, p :: ps, [.wrote p (some failure)], some failure⟩ := by
  rw [sendAll, write_eq, h]
  exact if_neg (Bool.eq_false_iff.mp hfatal)

/-- A packet that time runs out for is kept, and the pass goes on. -/
theorem sendAll_cons_of_timeout {core : Core} {p : Packet} {failure : ClientError}
    (h : (core.link.write p).1 = some failure) (htimeout : failure.isTimeout = true)
    (ps : List Packet) :
    core.sendAll (p :: ps)
      = (((core.written p).sendAll ps).keep p).after [.wrote p (some failure)] := by
  rw [sendAll, write_eq, h]
  exact if_pos htimeout

/-- A packet that is written is tracked, if it has to be answered. -/
theorem sendAll_cons_of_written {core : Core} {p : Packet} (h : (core.link.write p).1 = none)
    (ps : List Packet) :
    core.sendAll (p :: ps) = (((core.written p).noteWritten p).1.sendAll ps).after
      (.wrote p none :: ((core.written p).noteWritten p).2) := by
  rw [sendAll, write_eq, h]

/-- Tracking does not fail where requests are told apart. -/
theorem noteWritten_of_distinct {core : Core} {p : Packet} {ps : List Packet}
    (hwell : core.session.WellFormed) (hdistinct : core.DistinctWith (p :: ps)) :
    core.noteWritten p = ({ core with session := { core.session with
      sent := core.session.sent ++ Offer.tracked [(p, none)] } }, []) ∧
    (core.noteWritten p).1.DistinctWith ps := by
  have htracked : Offer.tracked [(p, none)] = ([p].filter Packet.awaitsAnswer).filterMap fun p =>
      (ExchangeKey.ofPacket? p).map fun key => ⟨key, p⟩ := rfl
  rcases noteWritten_cases core p with
    ⟨hawaits, key, hkey, -, hnote⟩ | ⟨hawaits, hnote⟩ | ⟨hawaits, hopen, -⟩
  · rw [htracked, hnote, List.filter_cons_of_pos hawaits]
    exact ⟨by simp [hkey], hdistinct.track hawaits⟩
  · rw [htracked, hnote, List.filter_cons_of_neg (Bool.eq_false_iff.mp hawaits)]
    exact ⟨by simp, hdistinct.tail⟩
  · obtain ⟨i, hid⟩ := Option.isSome_iff_exists.mp
      (Packet.packetId?_isSome_of_awaitsAnswer hawaits)
    have hkey : ExchangeKey.ofPacket? p = some ⟨p.kind, i⟩ := by
      rw [ExchangeKey.ofPacket?, hid]
      rfl
    exact absurd (hopen _ hkey) (hdistinct.free hwell hawaits hkey)

/-! ### The pass -/

/-- A pass hands packets over up to the first write that fails for good. It keeps those
that time ran out for, that one, and those behind it, and tracks what was written and
has to be answered. -/
theorem sendAll_eq {core : Core} {ps : List Packet} (hwell : core.session.WellFormed)
    (hdistinct : core.DistinctWith ps) {before back : List Offer}
    (hrow : ps.zip (core.link.endings ps) = before ++ back)
    (hbefore : ∀ o ∈ before, Offer.fatal o = false)
    (hback : ∀ o ∈ back.head?, Offer.fatal o = true) :
    ∃ link, core.sendAll ps =
      { core := { core with
          session := { core.session with sent := core.session.sent ++ Offer.tracked before }, link }
        kept := Offer.packets (before.filter Offer.timedOut) ++ Offer.packets back
        events := (before ++ back.take 1).map Offer.event
        failure := back.head?.bind Prod.snd } := by
  induction ps generalizing core before with
  | nil =>
      obtain ⟨rfl, rfl⟩ := List.append_eq_nil_iff.mp hrow.symm
      refine ⟨core.link, ?_⟩
      simp [sendAll, Offer.tracked, Offer.packets]
  | cons p ps ih =>
      have hrow : (p, (core.link.write p).1) :: ps.zip ((core.written p).link.endings ps)
          = before ++ back := hrow
      cases before with
      | nil =>
          -- The first write fails for good, and the rest of the queue stays.
          rw [List.nil_append] at hrow
          subst hrow
          cases hending : (core.link.write p).1 with
          | none => simp [hending, Offer.fatal] at hback
          | some failure =>
              have hfatal : failure.isTimeout = false := by
                simpa [hending, Offer.fatal] using hback
              refine ⟨(core.link.write p).2, ?_⟩
              rw [sendAll_cons_of_fatal hending hfatal]
              simp [written, Offer.tracked, Offer.packets, Offer.event,
                List.map_fst_zip (Nat.le_of_eq ((core.link.write p).2.length_endings ps).symm)]
      | cons o before =>
          obtain ⟨rfl, hrest⟩ := List.cons.inj hrow
          have hfine := hbefore _ List.mem_cons_self
          have hwritten : (core.written p).session.WellFormed := hwell
          have hbefore' : ∀ o ∈ before, Offer.fatal o = false :=
            fun o ho => hbefore o (List.mem_cons_of_mem _ ho)
          cases hending : (core.link.write p).1 with
          | none =>
              obtain ⟨hnote, hdistinct'⟩ := noteWritten_of_distinct hwritten hdistinct
              have hwell' := wellFormed_noteWritten hwritten p
              rw [hnote] at hdistinct' hwell'
              obtain ⟨link, hpass⟩ := ih hwell' hdistinct' hrest hbefore'
              refine ⟨link, ?_⟩
              have htracked : Offer.tracked ((p, none) :: before)
                  = Offer.tracked [(p, none)] ++ Offer.tracked before :=
                Offer.tracked_append [(p, none)] before
              rw [sendAll_cons_of_written hending, hnote, hpass, htracked]
              simp [written, Pass.after, Offer.packets, Offer.event, Offer.timedOut]
          | some failure =>
              have htimeout : failure.isTimeout = true := by
                simpa [hending, Offer.fatal] using hfine
              obtain ⟨link, hpass⟩ := ih hwritten hdistinct.tail hrest hbefore'
              refine ⟨link, ?_⟩
              rw [sendAll_cons_of_timeout hending htimeout, hpass]
              simp [written, Pass.keep, Pass.after, Offer.tracked, Offer.packets, Offer.event,
                Offer.timedOut, Offer.written, htimeout]

/-- So does a pass over the queue. -/
theorem flush_eq {core : Core} (hidentified : core.Identified) {before back : List Offer}
    (hrow : core.offers = before ++ back) (hbefore : ∀ o ∈ before, Offer.fatal o = false)
    (hback : ∀ o ∈ back.head?, Offer.fatal o = true) :
    ∃ link, core.flush =
      ({ core with
          pending := Offer.packets (before.filter Offer.timedOut) ++ Offer.packets back
          session := { core.session with sent := core.session.sent ++ Offer.tracked before }
          link },
        (before ++ back.take 1).map Offer.event, back.head?.bind Prod.snd) := by
  obtain ⟨link, hpass⟩ := sendAll_eq hidentified.wellFormed hidentified.distinct hrow hbefore hback
  refine ⟨link, ?_⟩
  rw [flush, hpass]

/-- Every packet of the queue is kept by a pass, or written, and not both. -/
theorem perm_flush (core : Core) :
    (core.flush.1.pending ++ Log.transmitted core.flush.2.1).Perm core.pending := by
  obtain ⟨rest, hqueue, hkept, -⟩ := core.kept_sendAll core.pending
  have hpending : core.flush.1.pending = Log.unwritten core.flush.2.1 ++ rest := hkept
  calc core.flush.1.pending ++ Log.transmitted core.flush.2.1
      = (Log.unwritten core.flush.2.1 ++ rest) ++ Log.transmitted core.flush.2.1 := by
        rw [hpending]
    List.Perm _ (Log.transmitted core.flush.2.1 ++ (Log.unwritten core.flush.2.1 ++ rest)) :=
        List.perm_append_comm
    _ = Log.transmitted core.flush.2.1 ++ Log.unwritten core.flush.2.1 ++ rest :=
        (List.append_assoc ..).symm
    List.Perm _ (Log.handed core.flush.2.1 ++ rest) :=
        (Log.handed_perm core.flush.2.1).symm.append_right rest
    _ = core.pending := hqueue.symm

end Core

namespace Client

/-- A pass in any state that a run reaches, before any of the waiting requests is queued
or after some were, if the run left a free identifier whenever one was needed; the network
may have anything in store for the writes.

If no write fails for good, every packet of the queue is handed over once, in order; those
that time ran out for are the new queue, and the session gains the written ones that have
to be answered. The first write that fails for good is the last that is tried; its packet
and those behind it stay in the queue, behind those that time ran out for. In any case the
new queue and what was written are the old queue. -/
theorem pass_conserves (settings : Settings) {s : Session} (link : Link) (as : List Action)
    (hs : Resumable s) {core : Core}
    (hcore : ((new settings s link).run as).1.loop.core? = some core)
    {taken waiting : List Request} (hinbox : core.inbox = taken ++ waiting)
    (hroomy : Log.RoomyAfter s.sent.length (((new settings s link).run as).2
      ++ ({ core with inbox := waiting }.acceptAll taken).2)) {link' : Link} {c : Core}
    (hc : c = { ({ core with inbox := waiting }.acceptAll taken).1 with link := link' }) :
    Offer.packets c.offers = c.pending ∧
    ((∀ o ∈ c.offers, Offer.fatal o = false) →
      ∃ last, c.flush =
        ({ c with
            pending := Offer.packets (c.offers.filter Offer.timedOut)
            session := { c.session with sent := c.session.sent ++ Offer.tracked c.offers }
            link := last },
          c.offers.map Offer.event, none)) ∧
    (∀ before p failure after, c.offers = before ++ (p, some failure) :: after →
      (∀ o ∈ before, Offer.fatal o = false) → failure.isTimeout = false →
      ∃ last, c.flush =
        ({ c with
            pending := Offer.packets (before.filter Offer.timedOut) ++ p :: Offer.packets after
            session := { c.session with sent := c.session.sent ++ Offer.tracked before }
            link := last },
          (before ++ [(p, some failure)]).map Offer.event, some failure)) ∧
    (c.flush.1.pending ++ Log.transmitted c.flush.2.1).Perm c.pending := by
  obtain ⟨reached, hmoves, hlast⟩ :=
    moves_run (new settings s link) as (Core.new settings s link 0) rfl
  obtain rfl := hlast core hcore
  rw [← Core.length_inFlight_new settings s link 0] at hroomy
  have hqueued : Core.Moves true core _ _ := (beats_acceptAll (P := fun _ => True) (a := .turn)
    trivial 0 { core with inbox := waiting } hinbox).moves
  have hidentified : c.Identified := by
    have h := (Core.tallied_moves (hs.identified settings link) (hmoves.trans hqueued)
      hroomy).identified
    rw [hc]
    exact ⟨h.wellFormed, h.distinct, h.numbered⟩
  refine ⟨c.packets_offers, ?_, ?_, Core.perm_flush c⟩
  · intro hfine
    have hrow := (List.append_nil c.offers).symm
    obtain ⟨last, hflush⟩ := Core.flush_eq hidentified hrow hfine (by simp)
    refine ⟨last, hflush.trans ?_⟩
    simp [Offer.packets]
  · intro before p failure after hrow hbefore hfatal
    have hback : ∀ o ∈ ((p, some failure) :: after : List Offer).head?, Offer.fatal o = true := by
      simp [Offer.fatal, hfatal]
    obtain ⟨last, hflush⟩ := Core.flush_eq hidentified hrow hbefore hback
    exact ⟨last, hflush⟩

/-- A message is written and waits for its answer when four more requests come. -/
def busyRun : List Action :=
  [.request (.publish ⟨"a", [1], .atLeastOnce, false, false, 0⟩),
    .expect [.ok (.connAck false .accepted)], .connect none, .turn,
    .request (.publish ⟨"b", [2], .exactlyOnce, false, false, 0⟩),
    .request (.publish ⟨"c", [3], .atMostOnce, false, false, 0⟩),
    .request (.subscribe "d" .atLeastOnce), .request (.unsubscribe "e")]

/-- The core that they find. -/
def busyCore : Core :=
  ((new default .empty default).run busyRun).1.loop.core?.get (by decide)

/-- Three of them are queued. One of the packets will be written, time will run out for
the next, and the connection will close under the third. -/
def queuedCore : Core :=
  { ({ busyCore with inbox := [.unsubscribe "e"] }.acceptAll (busyCore.inbox.take 3)).1 with
    link := ⟨true, [], [none, some .timeout, some .connectionClosed]⟩ }

/-- The message that was written is tracked, and the other two packets stay in the queue. -/
theorem pass_conserves_queuedCore :
    queuedCore.flush.1.pending = [.publish ⟨"c", [3], .atMostOnce, false, false, 0⟩,
        .subscribe ⟨3, "d", .atLeastOnce⟩] ∧
    Exchange.keys queuedCore.flush.1.session.sent = [⟨.publish, 1⟩, ⟨.publish, 2⟩] ∧
    queuedCore.flush.2.2 = some .connectionClosed ∧
    (queuedCore.flush.1.pending ++ Log.transmitted queuedCore.flush.2.1).Perm
      queuedCore.pending := by
  obtain ⟨-, -, hfatal, hperm⟩ := pass_conserves default default busyRun .empty
    (Option.some_get _).symm (show busyCore.inbox = busyCore.inbox.take 3 ++ [.unsubscribe "e"] by
      decide) (Log.roomyAfter_of_length (by decide)) (c := queuedCore) rfl
  obtain ⟨last, hflush⟩ := hfatal
    [(.publish ⟨"b", [2], .exactlyOnce, false, false, 2⟩, none),
      (.publish ⟨"c", [3], .atMostOnce, false, false, 0⟩, some .timeout)]
    (.subscribe ⟨3, "d", .atLeastOnce⟩) .connectionClosed [] (by decide) (by decide) rfl
  have hwaiting : Exchange.keys queuedCore.session.sent = [⟨.publish, 1⟩] := by decide
  refine ⟨?_, ?_, ?_, hperm⟩ <;> rw [hflush]
  · rfl
  · show Exchange.keys (queuedCore.session.sent ++ _) = _
    rw [Exchange.keys, List.map_append]
    exact congrArg (· ++ [⟨.publish, 2⟩]) hwaiting

end Client

end Mqtt
