import Mqtt.Client.Progress
import Mqtt.Proofs.Client.Ledger

/-!
# `Mqtt.Proofs.Client.Flush`: a pass over the queue

A pass hands the packets of the queue to the transport, in order, until a write fails for
good. What it leaves are the packets whose writes failed, and those that it did not come
to.

* `Core.kept_sendAll`: this is what a pass keeps.
* `Core.flushed_serve`: the same of a pass that takes in the waiting requests first
  (`Core.Flushed`).
-/

set_option autoImplicit false

namespace Mqtt

/-- The packet that an event hands to the transport, whatever comes of it. -/
def Event.wrote? : Event → Option Packet
  | .wrote p _ => some p
  | _ => none

namespace Log

/-- The packets that are handed to the transport, in order. -/
def handed (log : List Event) : List Packet :=
  log.filterMap Event.wrote?

/-- Logs in a row hand over the packets of each, in order. -/
theorem handed_append (log later : List Event) :
    handed (log ++ later) = handed log ++ handed later :=
  List.filterMap_append

/-- A write hands its packet over, even if it fails. -/
theorem handed_wrote (p : Packet) (failure : Option ClientError) (log : List Event) :
    handed (.wrote p failure :: log) = p :: handed log :=
  List.filterMap_cons_some rfl

/-- The packets whose writes failed, in order. -/
def unwritten (log : List Event) : List Packet :=
  log.filterMap fun
    | .wrote p (some _) => some p
    | _ => none

/-- Of what logs in a row hand over, they fail to write what each does. -/
theorem unwritten_append (log later : List Event) :
    unwritten (log ++ later) = unwritten log ++ unwritten later :=
  List.filterMap_append

/-- Where no write fails, nothing is left unwritten. -/
theorem unwritten_eq_nil {log : List Event} (h : ∀ p failure, .wrote p (some failure) ∉ log) :
    unwritten log = [] := by
  refine List.filterMap_eq_nil_iff.mpr fun e he => ?_
  cases e with
  | wrote p failure =>
      cases failure with
      | none => rfl
      | some failure => exact absurd he (h p failure)
  | _ => rfl

/-- The packets that were written, in order. -/
def transmitted (log : List Event) : List Packet :=
  log.filterMap fun
    | .wrote p none => some p
    | _ => none

/-- Of what logs in a row hand over, they write what each does. -/
theorem transmitted_append (log later : List Event) :
    transmitted (log ++ later) = transmitted log ++ transmitted later :=
  List.filterMap_append

/-- What was written was handed to the transport. -/
theorem transmitted_eq_nil {log : List Event} (h : handed log = []) : transmitted log = [] := by
  refine List.filterMap_eq_nil_iff.mpr fun e he => ?_
  have hnone := List.filterMap_eq_nil_iff.mp h e he
  cases e with
  | wrote p failure => cases hnone
  | _ => rfl

/-- A packet is transmitted by a write that succeeds. -/
theorem mem_transmitted_iff {log : List Event} {p : Packet} :
    p ∈ transmitted log ↔ .wrote p none ∈ log := by
  rw [transmitted, List.mem_filterMap]
  constructor
  · rintro ⟨e, he, hp⟩
    cases e with
    | wrote q failure =>
        cases failure with
        | none => exact Option.some.inj hp ▸ he
        | some failure => cases hp
    | _ => cases hp
  · exact fun h => ⟨_, h, rfl⟩

/-- What is handed to the transport is written, or its write fails. -/
theorem handed_perm (log : List Event) :
    (handed log).Perm (transmitted log ++ unwritten log) := by
  induction log with
  | nil => exact List.Perm.refl _
  | cons e log ih =>
      cases e with
      | wrote p failure =>
          cases failure with
          | none => exact ih.cons p
          | some failure => exact (ih.cons p).trans List.perm_middle.symm
      | _ => exact ih

/-- While no write fails, all is written in order. -/
theorem transmitted_eq_handed {log : List Event} (h : unwritten log = []) :
    transmitted log = handed log := by
  induction log with
  | nil => rfl
  | cons e log ih =>
      cases e with
      | wrote p failure =>
          cases failure with
          | none => exact congrArg (p :: ·) (ih h)
          | some failure => cases h
      | _ => exact ih h

end Log

namespace Core

/-! ### Writing the queue -/

/-- Writing a queue leaves nothing in the log but what was written and what could
not be tracked. -/
theorem events_sendAll (core : Core) (ps : List Packet) :
    ∀ e ∈ (core.sendAll ps).events,
      (∃ p failure, e = .wrote p failure) ∨ ∃ p reason, e = .untracked p reason := by
  induction ps generalizing core with
  | nil =>
      intro e he
      cases he
  | cons p ps ih =>
      unfold sendAll
      split
      · next core₁ hwrite =>
          show ∀ e ∈ .wrote p none :: ((core₁.noteWritten p).2
            ++ ((core₁.noteWritten p).1.sendAll ps).events), _
          intro e he
          rcases List.mem_cons.mp he with rfl | he
          · exact Or.inl ⟨p, none, rfl⟩
          · rcases List.mem_append.mp he with he | he
            · obtain ⟨reason, rfl⟩ := eq_untracked_of_noteWritten he
              exact Or.inr ⟨p, reason, rfl⟩
            · exact ih _ e he
      · next failure core₁ hwrite =>
          split
          · intro e he
            rcases List.mem_cons.mp he with rfl | he
            · exact Or.inl ⟨p, some failure, rfl⟩
            · exact ih _ e he
          · intro e he
            rw [List.mem_singleton.mp he]
            exact Or.inl ⟨p, some failure, rfl⟩

/-- So nothing is queued, completed or forgotten by it. -/
theorem of_flush (core : Core) :
    Log.queued core.flush.2.1 = [] ∧ Log.completed core.flush.2.1 = [] ∧
      Log.forgotten core.flush.2.1 = [] := by
  have hevents := events_sendAll core core.pending
  refine ⟨List.filterMap_eq_nil_iff.mpr ?_, List.filterMap_eq_nil_iff.mpr ?_,
    List.flatMap_eq_nil_iff.mpr ?_⟩ <;>
  · intro e he
    rcases hevents e he with ⟨p, failure, rfl⟩ | ⟨p, reason, rfl⟩ <;> rfl

/-- Tracking writes nothing. -/
theorem handed_noteWritten (core : Core) (p : Packet) :
    Log.handed (core.noteWritten p).2 = [] ∧ Log.unwritten (core.noteWritten p).2 = [] := by
  rcases noteWritten_cases core p with
    ⟨-, key, -, -, hnote⟩ | ⟨-, hnote⟩ | ⟨-, -, reason, hnote⟩ <;> rw [hnote] <;> exact ⟨rfl, rfl⟩

/-- A pass hands over the packets of a queue in order. It keeps those whose writes failed
and those that it did not come to, if a failure ended it. -/
theorem kept_sendAll (core : Core) (ps : List Packet) :
    ∃ rest, ps = Log.handed (core.sendAll ps).events ++ rest ∧
      (core.sendAll ps).kept = Log.unwritten (core.sendAll ps).events ++ rest ∧
      ((core.sendAll ps).failure = none → rest = []) := by
  induction ps generalizing core with
  | nil => exact ⟨[], rfl, rfl, fun _ => rfl⟩
  | cons p ps ih =>
      unfold sendAll
      split
      · next core₁ hwrite =>
          obtain ⟨rest, hhanded, hkept, hrest⟩ := ih (core₁.noteWritten p).1
          obtain ⟨hnone, hnone'⟩ := handed_noteWritten core₁ p
          refine ⟨rest, ?_, ?_, hrest⟩
          · show p :: ps = Log.handed (.wrote p none :: ((core₁.noteWritten p).2
              ++ ((core₁.noteWritten p).1.sendAll ps).events)) ++ rest
            rw [Log.handed_wrote, Log.handed_append, hnone, List.nil_append, List.cons_append,
              ← hhanded]
          · show ((core₁.noteWritten p).1.sendAll ps).kept = Log.unwritten ((core₁.noteWritten p).2
              ++ ((core₁.noteWritten p).1.sendAll ps).events) ++ rest
            rw [Log.unwritten_append, hnone', List.nil_append, hkept]
      · next failure core₁ hwrite =>
          -- After a timeout the rest of the queue is tried.
          split
          · obtain ⟨rest, hhanded, hkept, hrest⟩ := ih core₁
            exact ⟨rest, congrArg (p :: ·) hhanded, congrArg (p :: ·) hkept, hrest⟩
          · exact ⟨ps, rfl, rfl, fun h => by cases h⟩

/-! ### Serving -/

/-- Requests are queued in order, behind the queue, and nothing is written. -/
theorem queued_acceptAll (core : Core) (rs : List Request) :
    (core.acceptAll rs).1.pending = core.pending ++ Log.queued (core.acceptAll rs).2 ∧
      (Log.queued (core.acceptAll rs).2).map Packet.request? = rs.map (some ·.bare) ∧
      Log.handed (core.acceptAll rs).2 = [] ∧ Log.unwritten (core.acceptAll rs).2 = [] := by
  induction rs generalizing core with
  | nil => simp [acceptAll, Log.queued, Log.handed, Log.unwritten]
  | cons r rs ih =>
      obtain ⟨p, ids, haccept, -, hrequest, -⟩ := accept_cases core r
      have hcons : core.acceptAll (r :: rs) = (((core.accept r).1.acceptAll rs).1,
          .queued p :: ((core.accept r).1.acceptAll rs).2) := by
        show (((core.accept r).1.acceptAll rs).1,
          (core.accept r).2 ++ ((core.accept r).1.acceptAll rs).2) = _
        rw [haccept]
        rfl
      obtain ⟨hpending, hqueued, hrest⟩ := ih (core.accept r).1
      rw [hcons]
      refine ⟨?_, ?_, hrest⟩
      · show ((core.accept r).1.acceptAll rs).1.pending
          = core.pending ++ p :: Log.queued ((core.accept r).1.acceptAll rs).2
        rw [hpending, haccept]
        simp
      · show p.request? :: (Log.queued ((core.accept r).1.acceptAll rs).2).map Packet.request?
          = some r.bare :: rs.map (some ·.bare)
        rw [hrequest, hqueued]

/-- What queueing the requests of a core and handing over its queue come to. What is left
are the packets whose writes failed, and those behind a failure that ended the pass. -/
structure Flushed (core core' : Core) (events : List Event) (failure : Option ClientError) :
    Prop where
  queued : (Log.queued events).map Packet.request? = core.inbox.map (some ·.bare)
  inbox : core'.inbox = []
  queue : ∃ rest, core.pending ++ Log.queued events = Log.handed events ++ rest ∧
    core'.pending = Log.unwritten events ++ rest ∧ (failure = none → rest = [])

/-- Serving is a pass over the queue and the requests that are not queued yet. -/
theorem flushed_serve (core : Core) :
    Flushed core core.serve.1 core.serve.2.1 core.serve.2.2 := by
  obtain ⟨hpending, hqueued, hhanded, hunwritten⟩ :=
    queued_acceptAll { core with inbox := [] } core.inbox
  obtain ⟨rest, hps, hkept, hrest⟩ := kept_sendAll core.drainInbox.1 core.drainInbox.1.pending
  have hevents : Log.queued core.serve.2.1 = Log.queued core.drainInbox.2 := by
    show Log.queued (core.drainInbox.2 ++ core.drainInbox.1.flush.2.1) = _
    rw [Log.queued_append, (of_flush core.drainInbox.1).1, List.append_nil]
  refine ⟨by rw [hevents]; exact hqueued, congrArg Prod.fst (intake_serve core), rest, ?_, ?_,
    hrest⟩
  · show _ = Log.handed (core.drainInbox.2 ++ core.drainInbox.1.flush.2.1) ++ rest
    rw [hevents, Log.handed_append, drainInbox, hhanded]
    exact hpending.symm.trans hps
  · show _ = Log.unwritten (core.drainInbox.2 ++ core.drainInbox.1.flush.2.1) ++ rest
    rw [Log.unwritten_append, drainInbox, hunwritten]
    exact hkept

/-- A pass that nothing ends hands over all of it, and leaves what was not written. -/
theorem Flushed.of_served {core core' : Core} {events : List Event}
    (h : Flushed core core' events none) :
    core.pending ++ Log.queued events = Log.handed events ∧
      core'.pending = Log.unwritten events := by
  obtain ⟨rest, hhanded, hpending, hrest⟩ := h.queue
  rw [hrest rfl, List.append_nil] at hhanded hpending
  exact ⟨hhanded, hpending⟩

end Core

end Mqtt
