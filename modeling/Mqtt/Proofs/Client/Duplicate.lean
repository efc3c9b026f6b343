import Mqtt.Proofs.Client.Identifiers

/-!
# `Mqtt.Proofs.Client.Duplicate`: the duplicate flag tells the truth

A PUBLISH has its duplicate flag set if it was written before for the same
request, and only then. Which request a packet is written for cannot be read
off a log, because two requests may have the same content, and one may get
the identifier of another that is done. So the events of a log are attributed
to requests, which are told by their numbers: the `n`-th request that is
accepted is the `n`-th that is queued.

* `Log.Truthful`: every PUBLISH of an attributed log tells the truth.
* `Log.Tagged`: what is known of the messages that wait and of those that are
  held, each with the number of its request.
* `Core.flagged_move`: every move can be attributed (`Core.Flagged`).
* `Client.duplicate_iff_written`: what it says of runs.
-/

set_option autoImplicit false

namespace Mqtt

/-- The message of a PUBLISH. -/
def Packet.message? : Packet → Option Message
  | .publish m => some m
  | _ => none

/-- Only a PUBLISH has a message. -/
theorem Packet.message?_eq_some_iff {p : Packet} {m : Message} :
    p.message? = some m ↔ p = .publish m := by
  cases p <;> simp [message?]

/-- Whether an event queues a request, or hands a PUBLISH to the transport. -/
def Event.concernsPublish : Event → Bool
  | .queued _ | .wrote (.publish _) _ => true
  | _ => false

namespace Log

/-- Whether a message was written for the request with a number. -/
def WrittenFor (log : List (Event × Nat)) (n : Nat) : Prop :=
  ∃ m, (Event.wrote (.publish m) none, n) ∈ log

/-- Whether a message is that of the request with a number, its duplicate flag
aside. If identifiers did not run out, no later request has the same packet,
unless the packet has no identifier. -/
def QueuedAs (log : List Event) (m : Message) (n : Nat) : Prop :=
  (queued log)[n]? = some (.publish { m with duplicate := false }) ∧
    (Roomy log → m.qos ≠ .atMostOnce →
      ∀ later > n, (queued log)[later]? ≠ some (.publish { m with duplicate := false }))

/-- Whether every PUBLISH that was handed to the transport was queued as its request
was, and is a duplicate if it was written for this request before. -/
def Truthful (log : List (Event × Nat)) : Prop :=
  ∀ before m failure n after, log = before ++ (.wrote (.publish m) failure, n) :: after →
    QueuedAs (before.map Prod.fst) m n ∧ (m.duplicate = true ↔ WrittenFor before n) ∧
      (m.qos = .atMostOnce → m.duplicate = false)

/-- A message stays that of its request, unless another request gets the same packet. -/
theorem QueuedAs.append {log events : List Event} {m : Message} {n : Nat} (h : QueuedAs log m n)
    (hother : Roomy (log ++ events) → m.qos ≠ .atMostOnce →
      .publish { m with duplicate := false } ∉ queued events) :
    QueuedAs (log ++ events) m n := by
  obtain ⟨hget, hlast⟩ := h
  have hlt : n < (queued log).length := (List.getElem?_eq_some_iff.mp hget).1
  rw [QueuedAs, queued_append]
  refine ⟨by rw [List.getElem?_append_left hlt, hget], ?_⟩
  intro hroomy hqos later hlater
  rcases Nat.lt_or_ge later (queued log).length with hbefore | hafter
  · rw [List.getElem?_append_left hbefore]
    exact hlast (always_append_iff.mp hroomy).1 hqos later hlater
  · rw [List.getElem?_append_right hafter]
    intro heq
    exact hother hroomy hqos (List.mem_of_getElem? heq)

/-- The number of a request is that of one that was queued. -/
theorem QueuedAs.lt {log : List Event} {m : Message} {n : Nat} (h : QueuedAs log m n) :
    n < (queued log).length :=
  (List.getElem?_eq_some_iff.mp h.1).1

/-- What was written stays written. -/
theorem WrittenFor.append {log : List (Event × Nat)} {n : Nat} (h : WrittenFor log n)
    (added : List (Event × Nat)) : WrittenFor (log ++ added) n := by
  obtain ⟨m, hm⟩ := h
  exact ⟨m, List.mem_append_left _ hm⟩

/-- What was written for a request stays the same while nothing is written for it. -/
theorem writtenFor_append_iff {log added : List (Event × Nat)} {n : Nat}
    (h : ∀ m, (Event.wrote (.publish m) none, n) ∉ added) :
    WrittenFor (log ++ added) n ↔ WrittenFor log n := by
  constructor
  · rintro ⟨m, hm⟩
    exact ⟨m, (List.mem_append.mp hm).resolve_right (h m)⟩
  · exact fun hwritten => hwritten.append added

/-- What was written for a request was written after the request was queued. -/
theorem Truthful.lt {log : List (Event × Nat)} (h : Truthful log) {n : Nat}
    (hwritten : WrittenFor log n) : n < (queued (log.map Prod.fst)).length := by
  obtain ⟨m, hm⟩ := hwritten
  obtain ⟨before, after, hlog⟩ := List.append_of_mem hm
  have hlt := (h before m none n after hlog).1.lt
  rw [hlog, List.map_append, queued_append, List.length_append]
  omega

/-- A log stays truthful when no PUBLISH is added. -/
theorem Truthful.append {log added : List (Event × Nat)} (h : Truthful log)
    (hadded : ∀ x ∈ added, ∀ m failure, x.1 ≠ .wrote (.publish m) failure) :
    Truthful (log ++ added) := by
  intro before m failure n after hsplit
  rcases split_append hsplit with ⟨rest, hlog, -⟩ | ⟨rest, -, hnew⟩
  · exact h before m failure n rest hlog
  · exact absurd rfl (hadded (.wrote (.publish m) failure, n) (by rw [hnew]; simp) m failure)

/-- A log stays truthful when a PUBLISH is added that tells the truth. -/
theorem Truthful.append_wrote {log : List (Event × Nat)} (h : Truthful log) {m : Message}
    {n : Nat} (failure : Option ClientError) (hqueued : QueuedAs (log.map Prod.fst) m n)
    (hflag : m.duplicate = true ↔ WrittenFor log n)
    (hlevel : m.qos = .atMostOnce → m.duplicate = false) :
    Truthful (log ++ [(.wrote (.publish m) failure, n)]) := by
  intro before m' failure' n' after hsplit
  rcases split_append hsplit with ⟨rest, hlog, -⟩ | ⟨rest, hbefore, hnew⟩
  · exact h before m' failure' n' rest hlog
  · cases rest with
    | nil =>
        rw [List.append_nil] at hbefore
        obtain ⟨hx, -⟩ := List.cons.inj hnew
        obtain ⟨hwrote, rfl⟩ := Prod.mk.inj hx
        obtain ⟨hm, rfl⟩ := Event.wrote.inj hwrote
        obtain rfl := Packet.publish.inj hm
        rw [hbefore]
        exact ⟨hqueued, hflag, hlevel⟩
    | cons x rest => simp at hnew

/-- The messages that wait in the queue and those that the session holds, each with
the number of its request. -/
structure Tagged (log : List (Event × Nat)) (waiting held : List (Message × Nat)) : Prop where
  /-- No two of them are of the same request. -/
  distinct : ((waiting ++ held).map Prod.snd).Nodup
  queued : ∀ x ∈ waiting ++ held, QueuedAs (log.map Prod.fst) x.1 x.2
  flag : ∀ x ∈ waiting, x.1.duplicate = true ↔ WrittenFor log x.2
  level : ∀ x ∈ waiting, x.1.qos = .atMostOnce → x.1.duplicate = false
  written : ∀ x ∈ held, WrittenFor log x.2
  truthful : Truthful log

/-- Nothing changes with events by which no other request gets the packet of one of
the messages, and nothing is written for those that wait. -/
theorem Tagged.append {log added : List (Event × Nat)} {waiting held : List (Message × Nat)}
    (h : Tagged log waiting held)
    (hother : ∀ x ∈ waiting ++ held, Roomy (log.map Prod.fst ++ added.map Prod.fst) →
      x.1.qos ≠ .atMostOnce →
      .publish { x.1 with duplicate := false } ∉ Log.queued (added.map Prod.fst))
    (hwrote : ∀ m n, (Event.wrote (.publish m) none, n) ∉ added)
    (htruthful : Truthful (log ++ added)) : Tagged (log ++ added) waiting held := by
  constructor
  · exact h.distinct
  · intro x hx
    rw [List.map_append]
    exact (h.queued x hx).append (hother x hx)
  · intro x hx
    rw [writtenFor_append_iff fun m => hwrote m x.2]
    exact h.flag x hx
  · exact h.level
  · exact fun x hx => (h.written x hx).append added
  · exact htruthful

/-- Nothing changes with events that concern no PUBLISH. -/
theorem Tagged.quiet {log added : List (Event × Nat)} {waiting held : List (Message × Nat)}
    (h : Tagged log waiting held) (hadded : ∀ x ∈ added, x.1.concernsPublish = false) :
    Tagged (log ++ added) waiting held := by
  -- Nothing is queued, and no PUBLISH is handed to the transport.
  have hqueued : Log.queued (added.map Prod.fst) = [] := by
    apply List.filterMap_eq_nil_iff.mpr
    intro e he
    obtain ⟨x, hx, rfl⟩ := List.mem_map.mp he
    have hnone := hadded x hx
    cases hevent : x.1 with
    | queued p =>
        rw [hevent] at hnone
        cases hnone
    | _ => rfl
  have hwrote : ∀ m failure n, (Event.wrote (.publish m) failure, n) ∉ added := by
    intro m failure n hmem
    cases hadded _ hmem
  refine h.append ?_ (fun m n => hwrote m none n) ?_
  · rw [hqueued]
    exact fun _ _ _ _ => List.not_mem_nil
  · refine h.truthful.append fun x hx m failure heq => ?_
    exact hwrote m failure x.2 (by rw [← heq]; exact hx)

/-- The write of a message that waits fails: it is attributed to the message's request. -/
theorem Tagged.failed {log : List (Event × Nat)} {waiting held : List (Message × Nat)}
    (h : Tagged log waiting held) {m : Message} {n : Nat} (hm : (m, n) ∈ waiting)
    (failure : ClientError) :
    Tagged (log ++ [(.wrote (.publish m) (some failure), n)]) waiting held := by
  refine h.append (fun _ _ _ _ => List.not_mem_nil) (by simp) ?_
  exact h.truthful.append_wrote (some failure) (h.queued _ (List.mem_append_left _ hm))
    (h.flag _ hm) (h.level _ hm)

/-- A message that waits is written: then it is held, and the other requests are as
they were. -/
theorem Tagged.wrote {log : List (Event × Nat)} {front back held : List (Message × Nat)}
    {m : Message} {n : Nat} (h : Tagged log (front ++ (m, n) :: back) held) :
    Tagged (log ++ [(.wrote (.publish m) none, n)]) (front ++ back) (held ++ [(m, n)]) := by
  have hm : (m, n) ∈ front ++ (m, n) :: back := by simp
  -- Only the place of the message changes, so the numbers stay distinct.
  have hperm : (front ++ back ++ (held ++ [(m, n)])).Perm (front ++ (m, n) :: back ++ held) := by
    rw [List.perm_iff_count]
    intro x
    simp only [List.count_append, List.count_cons, List.count_nil]
    omega
  have hwait : ∀ x ∈ front ++ back, x ∈ front ++ (m, n) :: back := by
    intro x hx
    rw [List.mem_append, List.mem_cons]
    exact (List.mem_append.mp hx).imp_right Or.inr
  have hdistinct : ((front ++ back ++ (held ++ [(m, n)])).map Prod.snd).Nodup :=
    (hperm.map Prod.snd).nodup_iff.mpr h.distinct
  constructor
  · exact hdistinct
  · intro x hx
    rw [List.map_append]
    exact (h.queued x (hperm.mem_iff.mp hx)).append fun _ _ => List.not_mem_nil
  · intro x hx
    -- Another request has another number.
    have hne : x.2 ≠ n := by
      intro heq
      rw [List.map_append, List.nodup_append] at hdistinct
      refine hdistinct.2.2 x.2 (List.mem_map_of_mem hx) n ?_ heq
      exact List.mem_map.mpr ⟨(m, n), by simp, rfl⟩
    rw [writtenFor_append_iff (by simp [hne])]
    exact h.flag x (hwait x hx)
  · exact fun x hx => h.level x (hwait x hx)
  · intro x hx
    rcases List.mem_append.mp hx with hx | hx
    · exact (h.written x hx).append _
    · rw [List.mem_singleton.mp hx]
      exact ⟨m, by simp⟩
  · exact h.truthful.append_wrote none (h.queued _ (List.mem_append_left _ hm))
      (h.flag _ hm) (h.level _ hm)

/-- A message waits whose request is none of the others', and for which nothing was
written. -/
theorem Tagged.wait {log : List (Event × Nat)} {waiting held : List (Message × Nat)}
    (h : Tagged log waiting held) {m : Message} {n : Nat} (hfresh : m.duplicate = false)
    (hother : ∀ x ∈ waiting ++ held, x.2 ≠ n) (hqueued : QueuedAs (log.map Prod.fst) m n)
    (hunwritten : ¬WrittenFor log n) : Tagged log (waiting ++ [(m, n)]) held := by
  have hperm : (waiting ++ [(m, n)] ++ held).Perm ((m, n) :: (waiting ++ held)) := by
    rw [List.append_assoc]
    exact List.perm_middle
  constructor
  · rw [(hperm.map Prod.snd).nodup_iff, List.map_cons, List.nodup_cons]
    refine ⟨?_, h.distinct⟩
    intro hmem
    obtain ⟨x, hx, heq⟩ := List.mem_map.mp hmem
    exact hother x hx heq
  · intro x hx
    rcases List.mem_cons.mp (hperm.mem_iff.mp hx) with rfl | hx
    · exact hqueued
    · exact h.queued x hx
  · intro x hx
    rcases List.mem_append.mp hx with hx | hx
    · exact h.flag x hx
    -- It is no duplicate, and was not written: both sides are false.
    · rw [List.mem_singleton.mp hx, hfresh]
      exact ⟨fun htrue => absurd htrue Bool.false_ne_true,
        fun hwritten => absurd hwritten hunwritten⟩
  · intro x hx
    rcases List.mem_append.mp hx with hx | hx
    · exact h.level x hx
    · rw [List.mem_singleton.mp hx]
      exact fun _ => hfresh
  · exact h.written
  · exact h.truthful

/-- A request is queued that is no PUBLISH. -/
theorem Tagged.queue_other {log : List (Event × Nat)} {waiting held : List (Message × Nat)}
    (h : Tagged log waiting held) {p : Packet} (hp : p.message? = none) (n : Nat) :
    Tagged (log ++ [(.queued p, n)]) waiting held := by
  refine h.append ?_ (by simp) (h.truthful.append (by simp))
  intro x _ _ _ hmem
  rw [← List.mem_singleton.mp hmem] at hp
  cases hp

/-- A PUBLISH is queued: its request gets the next number, for which nothing was
written yet. -/
theorem Tagged.queue {log : List (Event × Nat)} {waiting held : List (Message × Nat)}
    (h : Tagged log waiting held) {m : Message} (hfresh : m.duplicate = false) (n : Nat)
    (hfree : Roomy (log.map Prod.fst ++ [Event.queued (.publish m)]) →
      ∀ x ∈ waiting ++ held, x.1.qos ≠ .atMostOnce → { x.1 with duplicate := false } ≠ m) :
    Tagged (log ++ [(Event.queued (.publish m), n)])
      (waiting ++ [(m, (Log.queued (log.map Prod.fst)).length)]) held := by
  have hbefore : Tagged (log ++ [(Event.queued (.publish m), n)]) waiting held := by
    refine h.append ?_ (by simp) (h.truthful.append (by simp))
    intro x hx hroomy hqos hmem
    exact hfree hroomy x hx hqos (Packet.publish.inj (List.mem_singleton.mp hmem))
  have hnew : QueuedAs ((log ++ [(Event.queued (.publish m), n)]).map Prod.fst) m
      (Log.queued (log.map Prod.fst)).length := by
    have hm : { m with duplicate := false } = m := by
      rw [← hfresh]
    have hqueued : Log.queued ((log ++ [(Event.queued (.publish m), n)]).map Prod.fst)
        = Log.queued (log.map Prod.fst) ++ [.publish m] := by
      rw [List.map_append, queued_append]
      rfl
    rw [QueuedAs, hqueued, hm]
    refine ⟨by simp, ?_⟩
    -- There is no later number.
    intro _ _ later hlater
    rw [List.getElem?_eq_none (by rw [List.length_append]; exact hlater)]
    simp
  refine hbefore.wait hfresh ?_ hnew ?_
  · exact fun x hx => Nat.ne_of_lt (h.queued x hx).lt
  · rw [writtenFor_append_iff (by simp)]
    exact fun hwritten => Nat.lt_irrefl _ (h.truthful.lt hwritten)

/-- Messages that are no longer held are no longer looked at, and the order of the
others does not count. -/
theorem Tagged.subperm {log : List (Event × Nat)} {waiting held held' : List (Message × Nat)}
    (h : Tagged log waiting held) (hheld : held'.Subperm held) : Tagged log waiting held' := by
  obtain ⟨kept, hperm, hsub⟩ := hheld
  have hmem : ∀ x ∈ held', x ∈ held := fun x hx => hsub.subset (hperm.mem_iff.mpr hx)
  constructor
  · rw [← ((hperm.append_left waiting).map Prod.snd).nodup_iff]
    exact h.distinct.sublist (((List.Sublist.refl waiting).append hsub).map Prod.snd)
  · intro x hx
    exact h.queued x (List.mem_append.mpr ((List.mem_append.mp hx).imp_right (hmem x)))
  · exact h.flag
  · exact h.level
  · exact fun x hx => h.written x (hmem x hx)
  · exact h.truthful

/-- Some of the messages that are held wait again, as duplicates. -/
theorem Tagged.requeue {log : List (Event × Nat)} {waiting held : List (Message × Nat)}
    (h : Tagged log waiting held) (stays : Message → Bool)
    (hlevel : ∀ x ∈ held, x.1.qos ≠ .atMostOnce) :
    Tagged log
      ((held.filter fun x : Message × Nat => !stays x.1).map
        (Prod.map (fun m : Message => { m with duplicate := true }) id) ++ waiting)
      (held.filter fun x : Message × Nat => stays x.1) := by
  -- The numbers of the requests are shared out.
  have hperm : (((held.filter fun x : Message × Nat => !stays x.1).map
          (Prod.map (fun m : Message => { m with duplicate := true }) id) ++ waiting
        ++ held.filter fun x : Message × Nat => stays x.1).map Prod.snd).Perm
      ((waiting ++ held).map Prod.snd) := by
    rw [List.map_append, List.map_append, List.map_map,
      show Prod.snd ∘ Prod.map (fun m : Message => { m with duplicate := true }) id
        = (Prod.snd : Message × Nat → Nat) from rfl, ← List.map_append, ← List.map_append]
    refine List.Perm.map _ ((List.perm_append_comm.append_right _).trans ?_)
    rw [List.append_assoc]
    refine List.Perm.append_left waiting (List.perm_append_comm.trans ?_)
    exact List.filter_append_perm (fun x : Message × Nat => stays x.1) held
  -- What waits again was held, and is a duplicate.
  have hagain : ∀ x ∈ (held.filter fun x : Message × Nat => !stays x.1).map
      (Prod.map (fun m : Message => { m with duplicate := true }) id),
      ∃ y ∈ held, x = ({ y.1 with duplicate := true }, y.2) := by
    intro x hx
    obtain ⟨y, hy, rfl⟩ := List.mem_map.mp hx
    exact ⟨y, (List.mem_filter.mp hy).1, rfl⟩
  constructor
  · exact hperm.nodup_iff.mpr h.distinct
  · intro x hx
    rcases List.mem_append.mp hx with hx | hx
    · rcases List.mem_append.mp hx with hx | hx
      · obtain ⟨y, hy, rfl⟩ := hagain x hx
        exact h.queued y (List.mem_append_right _ hy)
      · exact h.queued x (List.mem_append_left _ hx)
    · exact h.queued x (List.mem_append_right _ (List.mem_filter.mp hx).1)
  · intro x hx
    rcases List.mem_append.mp hx with hx | hx
    · obtain ⟨y, hy, rfl⟩ := hagain x hx
      exact ⟨fun _ => h.written y hy, fun _ => rfl⟩
    · exact h.flag x hx
  · intro x hx
    rcases List.mem_append.mp hx with hx | hx
    · obtain ⟨y, hy, rfl⟩ := hagain x hx
      exact fun hqos => absurd hqos (hlevel y hy)
    · exact h.level x hx
  · exact fun x hx => h.written x (List.mem_filter.mp hx).1
  · exact h.truthful

/-- A packet that is not a PUBLISH concerns none when it is written. -/
theorem concernsPublish_wrote {p : Packet} (h : p.message? = none)
    (failure : Option ClientError) : (Event.wrote p failure).concernsPublish = false := by
  cases p <;> first | rfl | cases h

/-- The tagged messages of a queue are split where the queue is. -/
theorem split_tagged {tagged : List (Message × Nat)} {front back : List Packet} {m : Message}
    (h : tagged.map Prod.fst = (front ++ .publish m :: back).filterMap Packet.message?) :
    ∃ front' n back', tagged = front' ++ (m, n) :: back' ∧
      (front' ++ back').map Prod.fst = (front ++ back).filterMap Packet.message? := by
  rw [List.filterMap_append, List.filterMap_cons_some (show (Packet.publish m).message? = some m
    from rfl), List.map_eq_append_iff] at h
  obtain ⟨front', rest, rfl, hfront, hrest⟩ := h
  obtain ⟨⟨m', n⟩, back', rfl, rfl, hback⟩ := List.map_eq_cons_iff.mp hrest
  refine ⟨front', n, back', rfl, ?_⟩
  rw [List.map_append, hfront, hback, List.filterMap_append]

/-- A message that is tagged is one of those that the packets carry. -/
theorem mem_of_tagged {tagged : List (Message × Nat)} {ps : List Packet}
    (h : tagged.map Prod.fst = ps.filterMap Packet.message?) {x : Message × Nat}
    (hx : x ∈ tagged) : .publish x.1 ∈ ps := by
  have hmem : x.1 ∈ tagged.map Prod.fst := List.mem_map_of_mem hx
  rw [h] at hmem
  obtain ⟨p, hp, hmessage⟩ := List.mem_filterMap.mp hmem
  rw [← Packet.message?_eq_some_iff.mp hmessage]
  exact hp

/-- A packet of the queue is written, and attributed to its request. -/
theorem Tagged.wrote_packet {log : List (Event × Nat)} {waiting held : List (Message × Nat)}
    (h : Tagged log waiting held) {front back : List Packet} {p : Packet}
    (hwaiting : waiting.map Prod.fst = (front ++ p :: back).filterMap Packet.message?) :
    ∃ n waiting' new, waiting'.map Prod.fst = (front ++ back).filterMap Packet.message? ∧
      new.map Prod.fst = p.message?.toList ∧
      Tagged (log ++ [(.wrote p none, n)]) waiting' (held ++ new) := by
  cases hp : p.message? with
  | none =>
      refine ⟨0, waiting, [], ?_, rfl, ?_⟩
      · rw [hwaiting, List.filterMap_append, List.filterMap_append, List.filterMap_cons_none hp]
      · rw [List.append_nil]
        refine h.quiet fun x hx => ?_
        rw [List.mem_singleton.mp hx]
        exact concernsPublish_wrote hp none
  | some m =>
      obtain rfl := Packet.message?_eq_some_iff.mp hp
      obtain ⟨front', n, back', rfl, hrest⟩ := split_tagged hwaiting
      exact ⟨n, front' ++ back', [(m, n)], hrest, rfl, h.wrote⟩

end Log

namespace Core

/-- The messages of the queue and of the session are tagged, in the order in which
they stand there. -/
def Flagged (log : List (Event × Nat)) (core : Core) : Prop :=
  ∃ waiting held, waiting.map Prod.fst = core.pending.filterMap Packet.message? ∧
    held.map Prod.fst = (core.session.sent.map Exchange.packet).filterMap Packet.message? ∧
    Log.Tagged log waiting held

/-- Dropping the answers of an old connection drops no message. -/
theorem filterMap_message?_requests (ps : List Packet) :
    (ps.filter Packet.isRequest).filterMap Packet.message? = ps.filterMap Packet.message? := by
  rw [List.filterMap_filter]
  apply List.filterMap_congr
  intro p _
  cases p <;> rfl

/-- Redelivery queues a message again as a duplicate, or leaves it in the session. -/
theorem message?_redelivery {s : Session} (h : s.WellFormed) {e : Exchange} (he : e ∈ s.sent) :
    (s.redelivery e).message?
        = (e.packet.message?.filter fun m => !s.isReleased m.packetId).map
            (fun m => { m with duplicate := true }) ∧
      (if s.staysTracked e then e.packet.message? else none)
        = e.packet.message?.filter fun m => s.isReleased m.packetId := by
  have hid := Exchange.packetId?_of_mem h.sent_keyed he
  unfold Session.redelivery Session.staysTracked
  cases hpacket : e.packet with
  | publish m =>
      rw [hpacket] at hid
      obtain ⟨-, hid'⟩ := Packet.packetId?_publish hid
      rw [← hid']
      cases hreleased : s.isReleased m.packetId <;> simp [Packet.message?, Option.filter, hreleased]
  | _ => simp [Packet.message?]

/-- So the messages of the session are shared out between the queue and the session. -/
theorem filterMap_message?_redeliver {s : Session} (h : s.WellFormed) :
    (s.sent.map s.redelivery).filterMap Packet.message?
        = (((s.sent.map Exchange.packet).filterMap Packet.message?).filter
            fun m => !s.isReleased m.packetId).map (fun m => { m with duplicate := true }) ∧
      ((s.sent.filter s.staysTracked).map Exchange.packet).filterMap Packet.message?
        = ((s.sent.map Exchange.packet).filterMap Packet.message?).filter
            fun m => s.isReleased m.packetId := by
  constructor
  · rw [List.filterMap_map, List.filterMap_map, List.filter_filterMap, List.map_filterMap]
    exact List.filterMap_congr fun e he => (message?_redelivery h he).1
  · rw [List.filterMap_map, List.filterMap_map, List.filterMap_filter, List.filter_filterMap]
    exact List.filterMap_congr fun e he => (message?_redelivery h he).2

/-- Nothing but the messages of the queue and of the session is looked at. -/
theorem Flagged.congr {log : List (Event × Nat)} {core core' : Core} (h : Flagged log core)
    (hpending : core'.pending.filterMap Packet.message? = core.pending.filterMap Packet.message?)
    (hsent : core'.session.sent = core.session.sent) : Flagged log core' := by
  obtain ⟨waiting, held, hwaiting, hheld, htagged⟩ := h
  exact ⟨waiting, held, hwaiting.trans hpending.symm, by rw [hsent]; exact hheld, htagged⟩

/-- Events that concern no PUBLISH are attributed to nothing. -/
theorem flagged_quiet {log : List (Event × Nat)} {core : Core} (h : Flagged log core)
    {events : List Event} (hquiet : ∀ e ∈ events, e.concernsPublish = false) :
    ∃ added, added.map Prod.fst = events ∧ Flagged (log ++ added) core := by
  obtain ⟨waiting, held, hwaiting, hheld, htagged⟩ := h
  refine ⟨events.map fun e => (e, 0), ?_, waiting, held, hwaiting, hheld, htagged.quiet ?_⟩
  · rw [List.map_map]
    exact List.map_id events
  · intro x hx
    obtain ⟨e, he, rfl⟩ := List.mem_map.mp hx
    exact hquiet e he

/-- Events that are aside are attributed to the requests of the queue. -/
theorem flagged_aside {log : List (Event × Nat)} {core : Core} {events : List Event}
    (h : Flagged log core) (haside : ∀ e ∈ events, e.isAside = true)
    (htried : ∀ p failure, .wrote p failure ∈ events → p.isRequest = true → p ∈ core.pending) :
    ∃ added, added.map Prod.fst = events ∧ Flagged (log ++ added) core := by
  -- One event after the other: the tagged messages stay the same.
  induction events generalizing log with
  | nil => exact ⟨[], rfl, by rw [List.append_nil]; exact h⟩
  | cons e events ih =>
      have hfirst : ∃ n, Flagged (log ++ [(e, n)]) core := by
        obtain ⟨waiting, held, hwaiting, hheld, htagged⟩ := h
        by_cases hconcerns : e.concernsPublish = true
        · cases e with
          | queued p => cases haside _ List.mem_cons_self
          | wrote p failure =>
              obtain ⟨m, rfl⟩ : ∃ m, p = .publish m := by
                cases p <;> first | exact ⟨_, rfl⟩ | cases hconcerns
              -- A PUBLISH that is aside could not be written.
              cases failure with
              | none => cases haside _ List.mem_cons_self
              | some failure =>
                  have hp := htried (.publish m) _ List.mem_cons_self rfl
                  have hm : m ∈ waiting.map Prod.fst := by
                    rw [hwaiting]
                    exact List.mem_filterMap.mpr ⟨.publish m, hp, rfl⟩
                  obtain ⟨⟨m', n⟩, hx, rfl⟩ := List.mem_map.mp hm
                  exact ⟨n, waiting, held, hwaiting, hheld, htagged.failed hx failure⟩
          | _ => cases hconcerns
        · refine ⟨0, waiting, held, hwaiting, hheld, htagged.quiet fun x hx => ?_⟩
          rw [List.mem_singleton.mp hx]
          exact Bool.eq_false_iff.mpr hconcerns
      obtain ⟨n, hn⟩ := hfirst
      obtain ⟨added, hadded, hrest⟩ := ih hn
        (fun e' he' => haside e' (List.mem_cons_of_mem e he'))
        (fun p failure hmem => htried p failure (List.mem_cons_of_mem e hmem))
      refine ⟨(e, n) :: added, by rw [List.map_cons, hadded], ?_⟩
      rw [List.append_cons]
      exact hrest

/-- A request that is queued gets the next number. -/
theorem flagged_queue {log : List (Event × Nat)} {core core' : Core} {p : Packet}
    (h : Flagged log core) (hpending : core'.pending = core.pending ++ [p])
    (hsession : core'.session = core.session) (hfresh : p.fresh = p)
    (hfree : Log.Roomy (log.map Prod.fst ++ [.queued p]) →
      ∀ q ∈ core.inFlight, q.fresh ≠ p) :
    ∃ added, added.map Prod.fst = [.queued p] ∧ Flagged (log ++ added) core' := by
  obtain ⟨waiting, held, hwaiting, hheld, htagged⟩ := h
  refine ⟨[(.queued p, 0)], rfl, ?_⟩
  cases hp : p.message? with
  | none =>
      refine ⟨waiting, held, ?_, by rw [hsession]; exact hheld, htagged.queue_other hp 0⟩
      rw [hpending, List.filterMap_append, List.filterMap_cons_none hp, hwaiting]
      exact (List.append_nil _).symm
  | some m =>
      obtain rfl := Packet.message?_eq_some_iff.mp hp
      -- A packet that is queued for a request is no duplicate.
      have hm : m.duplicate = false := by
        have hm := Packet.publish.inj hfresh
        rw [← hm]
      refine ⟨waiting ++ [(m, _)], held, ?_, by rw [hsession]; exact hheld,
        htagged.queue hm 0 ?_⟩
      · rw [hpending, List.filterMap_append, List.filterMap_cons_some hp, List.map_append, hwaiting]
        rfl
      · -- What has an identifier is in flight.
        intro hroomy x hx hqos heq
        have hawaits : (Packet.publish x.1).awaitsAnswer = true := decide_eq_true hqos
        refine hfree hroomy (.publish x.1) ?_ (congrArg Packet.publish heq)
        rcases List.mem_append.mp hx with hx | hx
        · exact List.mem_append_left _
            (List.mem_filter.mpr ⟨Log.mem_of_tagged hwaiting hx, hawaits⟩)
        · exact List.mem_append_right _ (Log.mem_of_tagged hheld hx)

/-- A packet of the queue that is written is tracked, or no longer held anywhere. -/
theorem flagged_write {log : List (Event × Nat)} {core core' : Core} {front back : List Packet}
    {p : Packet} (h : Flagged log core) (hpending : core.pending = front ++ p :: back)
    (hpending' : core'.pending = front ++ back)
    (hsent : core'.session.sent.map Exchange.packet
        = core.session.sent.map Exchange.packet ++ [p] ∨
      core'.session.sent = core.session.sent) :
    ∃ added, added.map Prod.fst = [.wrote p none] ∧ Flagged (log ++ added) core' := by
  obtain ⟨waiting, held, hwaiting, hheld, htagged⟩ := h
  rw [hpending] at hwaiting
  obtain ⟨n, waiting', new, hwaiting', hnew, htagged'⟩ := htagged.wrote_packet hwaiting
  refine ⟨[(.wrote p none, n)], rfl, waiting', ?_⟩
  rw [hpending']
  rcases hsent with hsent | hsent
  · refine ⟨held ++ new, hwaiting', ?_, htagged'⟩
    rw [hsent, List.filterMap_append, List.map_append, hheld, hnew]
    cases hp : p.message? with
    | none => rw [List.filterMap_cons_none hp]; rfl
    | some m => rw [List.filterMap_cons_some hp]; rfl
  · refine ⟨held, hwaiting', by rw [hsent]; exact hheld, htagged'.subperm ?_⟩
    exact (List.sublist_append_left held new).subperm

/-- Routing a packet leaves the messages of the queue alone, and those of the
session but for their order and the one that is completed. -/
theorem flagged_route {log : List (Event × Nat)} {core : Core} {p : Packet}
    (h : Flagged log core) (hwell : core.session.WellFormed)
    (hrouting : Routing core p (core.route p)) : Flagged log (core.route p).core := by
  cases hrouting with
  -- Answers are no messages.
  | answer answers hanswers hsent hpending =>
      have hnone : answers.filterMap Packet.message? = [] := by
        apply List.filterMap_eq_nil_iff.mpr
        intro a ha
        have hrequest := hanswers a ha
        cases a <;> first | rfl | cases hrequest
      refine h.congr ?_ hsent
      rw [hpending, List.filterMap_append, hnone, List.append_nil]
  -- A message less is tracked, or a request that is no message.
  | complete front back e n hfound hsent hpending =>
      obtain ⟨waiting, held, hwaiting, hheld, htagged⟩ := h
      have hsub : (((front ++ back).map Exchange.packet).filterMap Packet.message?).Sublist
          (held.map Prod.fst) := by
        rw [hheld]
        exact ((sublist_cut hfound).map _).filterMap _
      obtain ⟨held', hheld', heq⟩ := List.sublist_map_iff.mp hsub
      refine ⟨waiting, held', by rw [hpending]; exact hwaiting, ?_, htagged.subperm hheld'.subperm⟩
      rw [hsent, heq]
  -- The message keeps its number and goes to the end.
  | release front back e packetId hfound hkey hsent hpending =>
      obtain ⟨waiting, held, hwaiting, hheld, htagged⟩ := h
      have hkind := Exchange.kind_of_cut hwell.sent_keyed hfound hkey
      obtain ⟨m, hm⟩ := Packet.eq_publish_of_kind hkind
      rw [hfound, List.map_append, List.map_cons, hm] at hheld
      obtain ⟨front', n, back', rfl, hrest⟩ := Log.split_tagged hheld
      refine ⟨waiting, front' ++ back' ++ [(m, n)], ?_, ?_, htagged.subperm ?_⟩
      · rw [hpending, List.filterMap_append, hwaiting]
        exact (List.append_nil _).symm
      · have hlast : ((front ++ back ++ [e]).map Exchange.packet).filterMap Packet.message?
            = (front.map Exchange.packet ++ back.map Exchange.packet).filterMap Packet.message?
              ++ [m] := by
          rw [List.map_append, List.map_append, List.filterMap_append, List.map_singleton, hm]
          rfl
        rw [hsent, hlast, List.map_append, hrest]
        rfl
      · rw [List.append_assoc]
        exact ((List.perm_append_singleton (m, n) back').append_left front').subperm

/-- A connection queues messages again as duplicates. -/
theorem flagged_redeliver {log : List (Event × Nat)} {core core' : Core} (h : Flagged log core)
    (hwell : core.session.WellFormed)
    (hpending : core'.pending
      = core.session.redeliver.1 ++ core.pending.filter Packet.isRequest)
    (hsession : core'.session = core.session.redeliver.2) : Flagged log core' := by
  obtain ⟨waiting, held, hwaiting, hheld, htagged⟩ := h
  obtain ⟨hqueued, hstays⟩ := filterMap_message?_redeliver hwell
  -- Only messages above level 0 are tracked, so only these become duplicates.
  have hlevel : ∀ x ∈ held, x.1.qos ≠ .atMostOnce := by
    intro x hx
    obtain ⟨e, he, hpacket⟩ := List.mem_map.mp (Log.mem_of_tagged hheld hx)
    have hawaits := hwell.sent_awaits e he
    rw [hpacket] at hawaits
    exact of_decide_eq_true hawaits
  refine ⟨_, _, ?_, ?_, htagged.requeue (fun m => core.session.isReleased m.packetId) hlevel⟩
  · rw [hpending, List.filterMap_append, filterMap_message?_requests, ← hwaiting]
    show _ = (core.session.sent.map core.session.redelivery).filterMap Packet.message? ++ _
    rw [hqueued, ← hheld, List.filter_map, List.map_append, List.map_map, List.map_map]
    rfl
  · rw [hsession]
    show _ = ((core.session.sent.filter core.session.staysTracked).map Exchange.packet).filterMap
      Packet.message?
    rw [hstays, ← hheld, List.filter_map]
    rfl

/-- Every move can be attributed: with the events that it adds the messages stay
tagged. -/
theorem flagged_move {connecting : Bool} {log : List (Event × Nat)} {core core' : Core}
    {events : List Event} (h : Flagged log core) (hwell : core.session.WellFormed)
    (hmove : Move connecting core events core')
    (hfree : Log.Roomy (log.map Prod.fst ++ events) → ∀ p, events = [.queued p] →
      ∀ q ∈ core.inFlight, q.fresh ≠ p) :
    ∃ added, added.map Prod.fst = events ∧ Flagged (log ++ added) core' := by
  have hmessages := filterMap_message?_requests core.pending
  cases hmove.effect hwell with
  | aside hbooks haside htried =>
      obtain ⟨added, hadded, hflagged⟩ := flagged_aside h haside htried
      exact ⟨added, hadded, hflagged.congr (congrArg (List.filterMap Packet.message?)
        (congrArg Books.pending hbooks)) (congrArg (Session.sent ∘ Books.session) hbooks)⟩
  | ask _ r => exact flagged_quiet (h.congr rfl rfl) (by simp [Event.concernsPublish])
  | @queue _ _ r inbox p ids hinbox hrequest hfresh hid =>
      exact flagged_queue h rfl rfl hfresh fun hroomy => hfree hroomy p rfl
  | track hpending hawaits hkey hopen =>
      exact flagged_write h hpending rfl (Or.inl (by rw [List.map_append]; rfl))
  | drop hpending hawaits => exact flagged_write h hpending rfl (Or.inr rfl)
  -- Tracking fails after the write, and the event of that concerns no message.
  | @refuse _ _ front back p reason hpending hawaits hopen =>
      have hwritten : ∃ added, added.map Prod.fst = [Event.wrote p none] ∧
          Flagged (log ++ added) { core with pending := front ++ back } :=
        flagged_write h hpending rfl (Or.inr rfl)
      obtain ⟨added, hadded, hflagged⟩ := hwritten
      have hquiet : ∀ e ∈ [Event.untracked p reason], e.concernsPublish = false := by
        simp [Event.concernsPublish]
      obtain ⟨added', hadded', hflagged'⟩ := flagged_quiet hflagged hquiet
      refine ⟨added ++ added', by rw [List.map_append, hadded, hadded']; rfl, ?_⟩
      rw [← List.append_assoc]
      exact hflagged'
  | route p handler hrouting =>
      refine flagged_quiet (flagged_route h hwell hrouting) ?_
      intro e he
      rcases List.mem_cons.mp he with rfl | he
      · rfl
      · obtain ⟨n, -, rfl⟩ := List.mem_map.mp he
        rfl
  -- What was tracked is forgotten with its numbers; what waits is kept.
  | forget now hclean =>
      obtain ⟨waiting, held, hwaiting, hheld, htagged⟩ := h
      refine flagged_quiet ⟨waiting, [], ?_, rfl, htagged.subperm (List.nil_subperm)⟩
        (by simp [Event.concernsPublish])
      exact hwaiting.trans hmessages.symm
  | redeliver now hkept =>
      exact flagged_quiet (flagged_redeliver h hwell rfl rfl) (by simp [Event.concernsPublish])

/-- What is in flight has to be answered. -/
theorem awaitsAnswer_of_inFlight {core : Core} (h : core.session.WellFormed) {p : Packet}
    (hp : p ∈ core.inFlight) : p.awaitsAnswer = true := by
  rcases List.mem_append.mp hp with hp | hp
  · exact (List.mem_filter.mp hp).2
  · obtain ⟨e, he, rfl⟩ := List.mem_map.mp hp
    exact h.sent_awaits e he

/-- So can chains of moves that start with an empty session. -/
theorem flagged_moves {connecting : Bool} {settings : Settings} {link : Link} {now : Nat}
    {core : Core} {log : List Event}
    (hmoves : Moves connecting (new settings .empty link now) log core) :
    ∃ attributed, attributed.map Prod.fst = log ∧ Flagged attributed core := by
  have hstart := identified_empty settings link now
  induction hmoves with
  | refl =>
      exact ⟨[], rfl, [], [], rfl, rfl, by simp, by simp, by simp, by simp, by simp, by
        intro before m failure n after hsplit
        cases before <;> cases hsplit⟩
  | @snoc core core' log events hmoves hmove ih =>
      obtain ⟨attributed, rfl, hflagged⟩ := ih
      have hfree : Log.Roomy (attributed.map Prod.fst ++ events) → ∀ p, events = [.queued p] →
          ∀ q ∈ core.inFlight, q.fresh ≠ p := by
        -- A request that is queued gets an identifier that is not in use.
        intro hroomy p hevents q hq hfresh
        have hroomy' := Log.roomy_iff.mp hroomy
        have htallied := tallied_moves hstart hmoves (Log.always_append_iff.mp hroomy').1
        rcases (htallied.balanced hmove hroomy').added with hnone | ⟨p', hevents', -, hunused⟩
        · have hrequested : p ∈ Log.requested events := by
            rw [hevents]
            refine List.mem_filter.mpr ⟨List.mem_singleton.mpr rfl, ?_⟩
            rw [← hfresh, Packet.awaitsAnswer_fresh]
            exact awaitsAnswer_of_inFlight htallied.identified.wellFormed hq
          rw [hnone] at hrequested
          cases hrequested
        · rw [hevents] at hevents'
          obtain rfl := Event.queued.inj (List.singleton_inj.mp hevents')
          rw [← hfresh, Packet.packetId?_fresh] at hunused
          exact hunused (List.mem_map_of_mem hq)
      obtain ⟨added, hadded, hflagged'⟩ :=
        flagged_move hflagged (wellFormed_moves hstart.wellFormed hmoves) hmove hfree
      exact ⟨attributed ++ added, by rw [List.map_append, hadded], hflagged'⟩

/-- Requests are queued in the order in which they were accepted. -/
theorem inbox_move {connecting : Bool} {core core' : Core} {events : List Event}
    (h : core.session.WellFormed) (hmove : Move connecting core events core') :
    (Log.queued events).map Packet.request? ++ core'.inbox.map (some ·.bare)
      = core.inbox.map (some ·.bare) ++ (Log.accepted events).map (some ·.bare) := by
  cases hmove.effect h with
  | aside hbooks haside =>
      obtain ⟨haccepted, hqueued, -⟩ := Log.of_isAside haside
      rw [haccepted, hqueued, show core'.inbox = core.inbox from congrArg Books.inbox hbooks]
      exact (List.append_nil _).symm
  | ask _ r => exact List.map_append
  | @queue _ _ r inbox p ids hinbox hrequest hfresh hid =>
      rw [hinbox, show Log.queued [Event.queued p] = [p] from rfl, List.map_singleton, hrequest]
      exact (List.append_nil _).symm
  | route p handler hrouting =>
      rw [(route_frame core p).1]
      cases (core.route p).notice <;> exact (List.append_nil _).symm
  | _ => exact (List.append_nil _).symm

/-- So they are along a chain of moves. -/
theorem inbox_moves {connecting : Bool} {start core : Core} {log : List Event}
    (h : start.session.WellFormed) (hmoves : Moves connecting start log core) :
    (Log.queued log).map Packet.request? ++ core.inbox.map (some ·.bare)
      = start.inbox.map (some ·.bare) ++ (Log.accepted log).map (some ·.bare) := by
  induction hmoves with
  | refl => exact (List.append_nil _).symm
  | snoc hmoves hmove ih =>
      rw [Log.queued_append, Log.accepted_append, List.map_append, List.map_append,
        List.append_assoc, inbox_move (wellFormed_moves h hmoves) hmove, ← List.append_assoc, ih,
        List.append_assoc]

/-- A core that starts without requests queues the first ones of those that it accepts. -/
theorem queued_prefix_accepted {connecting : Bool} {start core : Core} {log : List Event}
    (h : start.session.WellFormed) (hinbox : start.inbox = [])
    (hmoves : Moves connecting start log core) :
    (Log.queued log).map Packet.request? <+: (Log.accepted log).map (some ·.bare) := by
  have heq := inbox_moves h hmoves
  rw [hinbox, List.map_nil, List.nil_append] at heq
  exact ⟨_, heq⟩

end Core

namespace Client

/-- The events of every run that starts with an empty session can be attributed to
requests so that every PUBLISH that is handed to the transport is that of a
request that was accepted, whose own flag and identifier do not count, and is
a duplicate if and only if it was written before for the same request. At
level 0 it never is. -/
theorem duplicate_iff_written (settings : Settings) (link : Link) (as : List Action) :
    ∃ attributed : List (Event × Nat),
      attributed.map Prod.fst = ((new settings .empty link).run as).2 ∧
      ∀ before m failure n after,
        attributed = before ++ (.wrote (.publish m) failure, n) :: after →
        (∃ r, (Log.accepted ((new settings .empty link).run as).2)[n]? = some r ∧
          r.bare = .publish { m with duplicate := false, packetId := 0 }) ∧
        Log.QueuedAs (before.map Prod.fst) m n ∧
        (m.duplicate = true ↔ Log.WrittenFor before n) ∧
        (m.qos = .atMostOnce → m.duplicate = false) := by
  obtain ⟨last, hmoves, -⟩ :=
    moves_run (new settings .empty link) as (Core.new settings .empty link 0) rfl
  obtain ⟨attributed, hlog, waiting, held, -, -, htagged⟩ := Core.flagged_moves hmoves
  refine ⟨attributed, hlog, ?_⟩
  intro before m failure n after hsplit
  obtain ⟨hqueued, hflag, hlevel⟩ := htagged.truthful before m failure n after hsplit
  refine ⟨?_, hqueued, hflag, hlevel⟩
  -- What was queued with a number was accepted with it.
  have hget : (Log.queued ((new settings .empty link).run as).2)[n]?
      = some (.publish { m with duplicate := false }) := by
    rw [← hlog, hsplit, List.map_append, Log.queued_append,
      List.getElem?_append_left hqueued.lt, hqueued.1]
  have hinbox := congrArg (·[n]?) (Core.inbox_moves Session.wellFormed_empty hmoves)
  rw [show (Core.new settings .empty link 0).inbox = [] from rfl, List.map_nil,
    List.nil_append] at hinbox
  have hlt := (List.getElem?_eq_some_iff.mp hget).1
  rw [List.getElem?_append_left (by rw [List.length_map]; exact hlt), List.getElem?_map, hget,
    List.getElem?_map] at hinbox
  obtain ⟨r, hr, hbare⟩ := Option.map_eq_some_iff.mp hinbox.symm
  exact ⟨r, hr, Option.some.inj hbare⟩

/-- A message is written; the write of another one, for which the caller set the
flag, times out twice, once on each side of a new connection. -/
def mixedRun : List Action :=
  [.expect [.ok (.connAck false .accepted)], .connect none,
    .request (.publish ⟨"a", [1], .atLeastOnce, false, false, 0⟩),
    .request (.publish ⟨"b", [2], .exactlyOnce, false, true, 0⟩),
    .outcomes [none, some .timeout], .turn, .disconnect false,
    .expect [.ok (.connAck true .accepted), .error .timeout],
    .outcomes [none, none, some .timeout], .connect none, .turn, .turn, .turn]

example : (((new default .empty default).run mixedRun).2.filterMap fun
      | .wrote (.publish m) failure => some (m.packetId, m.duplicate, failure.isNone)
      | _ => none)
    = [(1, false, true), (2, false, false), (1, true, true), (2, false, false),
      (2, false, true)] := by
  decide

end Client

end Mqtt
