import Mathlib.Data.List.DropRight
import Mqtt.Proofs.Client.Duplicate

/-!
# `Mqtt.Proofs.Client.Attribution`: which request a packet was written for

Two requests may have the same packet, so the events of a log are attributed to
requests by numbers: those that the session held at the start come first, and
then the others in the order in which they were queued.

* `Log.numbers`: the requests that were written, in order.
* `Log.current`: those that were written since a connection was opened, and
  `Log.former`: those that were written before.
* `Log.AskedAs`: whether a packet is that of the request with a number.
-/

set_option autoImplicit false

namespace Mqtt

/-- Whether an event opens a connection. -/
def Event.opens : Event → Bool
  | .opened _ _ none => true
  | _ => false

/-- Whether an event writes a request. -/
def Event.writesRequest : Event → Bool
  | .wrote p none => p.isRequest
  | _ => false

/-- Whether an event queues a request or writes one. -/
def Event.concernsRequest (e : Event) : Bool :=
  e.queued?.isSome || e.writesRequest

/-- An event that concerns no request neither queues one nor writes one. -/
theorem Event.of_not_concernsRequest {e : Event} (h : e.concernsRequest = false) :
    e.queued? = none ∧ e.writesRequest = false := by
  rw [concernsRequest, Bool.or_eq_false_iff] at h
  exact ⟨Option.not_isSome_iff_eq_none.mp (by rw [h.1]; exact Bool.false_ne_true), h.2⟩

/-- What a client does on its own account concerns no request. -/
theorem Event.concernsRequest_of_isOwn {e : Event} (h : e.isOwn = true) :
    e.concernsRequest = false := by
  cases e with
  | queued p => cases h
  | wrote p failure =>
      cases failure with
      | none => exact isRequest_of_isOwn h
      | some failure => rfl
  | _ => rfl

namespace Log

/-- The numbers of the requests that were written, in order. -/
def numbers (log : List (Event × Nat)) : List Nat :=
  (log.filter fun x => x.1.writesRequest).map Prod.snd

/-- Those that were written since a connection was opened. -/
def current (log : List (Event × Nat)) : List Nat :=
  numbers (log.rtakeWhile fun x => !x.1.opens)

/-- Those that were written before it was opened. -/
def former (log : List (Event × Nat)) : List Nat :=
  numbers (log.rdropWhile fun x => !x.1.opens)

/-- The packets of all requests, by their numbers. -/
def asked (start : Core) (log : List (Event × Nat)) : List Packet :=
  start.session.sent.map (fun e => e.packet.fresh) ++ queued (log.map Prod.fst)

/-- Whether a packet is that of the request with a number, its duplicate flag aside.
If the requests in flight were told apart at the start, and identifiers did
not run out, no later request has the same packet, unless the packet needs no
answer. -/
def AskedAs (start : Core) (log : List (Event × Nat)) (p : Packet) (n : Nat) : Prop :=
  (asked start log)[n]? = some p.fresh ∧
    (start.Identified → RoomyAfter start.inFlight.length (log.map Prod.fst) →
      p.awaitsAnswer = true → ∀ later > n, (asked start log)[later]? ≠ some p.fresh)

variable {log added : List (Event × Nat)}

/-- Logs in a row write the requests of each, in order. -/
theorem numbers_append (log added : List (Event × Nat)) :
    numbers (log ++ added) = numbers log ++ numbers added := by
  rw [numbers, List.filter_append, List.map_append]
  rfl

/-- Requests that are queued get the next numbers. -/
theorem asked_append (start : Core) (log added : List (Event × Nat)) :
    asked start (log ++ added) = asked start log ++ queued (added.map Prod.fst) := by
  rw [asked, List.map_append, queued_append, ← List.append_assoc]
  rfl

/-- Events that concern no request queue none and write none. -/
theorem of_not_concernsRequest (h : ∀ x ∈ added, x.1.concernsRequest = false) :
    queued (added.map Prod.fst) = [] ∧ numbers added = [] := by
  constructor
  · apply List.filterMap_eq_nil_iff.mpr
    intro e he
    obtain ⟨x, hx, rfl⟩ := List.mem_map.mp he
    exact (Event.of_not_concernsRequest (h x hx)).1
  · refine List.map_eq_nil_iff.mpr (List.filter_eq_nil_iff.mpr fun x hx => ?_)
    rw [(Event.of_not_concernsRequest (h x hx)).2]
    exact Bool.false_ne_true

/-- A write queues nothing. -/
theorem queued_wrote (p : Packet) (n : Nat) :
    queued (List.map Prod.fst ((.wrote p none, n) :: added)) = queued (added.map Prod.fst) :=
  rfl

/-- What is written for a request has its number. -/
theorem numbers_wrote {p : Packet} (hrequest : p.isRequest = true) (n : Nat) :
    numbers ((.wrote p none, n) :: added) = n :: numbers added :=
  congrArg (List.map Prod.snd) (List.filter_cons_of_pos hrequest)

/-- What was written before a connection was opened, and since then, is all that was
written. -/
theorem former_append_current (log : List (Event × Nat)) :
    former log ++ current log = numbers log := by
  rw [former, current, ← numbers_append, List.rdropWhile_append_rtakeWhile]

/-- What is written now is written. -/
theorem current_sublist (log : List (Event × Nat)) : (current log).Sublist (numbers log) :=
  ((List.rtakeWhile_suffix _ log).sublist.filter _).map _

/-- An event that opens a connection starts a new count, and any other adds to it. -/
theorem current_snoc (log : List (Event × Nat)) (x : Event × Nat) :
    current (log ++ [x]) = if x.1.opens then [] else current log ++ numbers [x] := by
  rw [current, List.rtakeWhile_concat]
  cases x.1.opens with
  | true => rfl
  | false => exact numbers_append _ _

/-- On the same connection, what is written is added. -/
theorem current_append (h : ∀ x ∈ added, x.1.opens = false) (log : List (Event × Nat)) :
    current (log ++ added) = current log ++ numbers added := by
  induction added generalizing log with
  | nil => rw [List.append_nil, show numbers [] = [] from rfl, List.append_nil]
  | cons x added ih =>
      rw [List.append_cons, ih fun y hy => h y (List.mem_cons_of_mem x hy), current_snoc,
        h x List.mem_cons_self, if_neg Bool.false_ne_true, List.append_assoc, ← numbers_append]
      rfl

/-- A connection starts with nothing. -/
theorem current_append_of_opens (hopens : ∃ x ∈ added, x.1.opens = true)
    (hnone : numbers added = []) (log : List (Event × Nat)) : current (log ++ added) = [] := by
  induction added using List.reverseRecOn with
  | nil => obtain ⟨x, hx, -⟩ := hopens; cases hx
  | append_singleton added x ih =>
      rw [numbers_append, List.append_eq_nil_iff] at hnone
      rw [← List.append_assoc, current_snoc, hnone.2, List.append_nil]
      split
      · rfl
      · next hx =>
          obtain ⟨y, hy, hyopens⟩ := hopens
          refine ih ⟨y, (List.mem_append.mp hy).resolve_right fun hmem => hx ?_, hyopens⟩ hnone.1
          rw [← List.mem_singleton.mp hmem]
          exact hyopens

/-- What is written on the last connection was written on it before, or is new. -/
theorem current_append_sublist (log added : List (Event × Nat)) :
    (current (log ++ added)).Sublist (current log ++ numbers added) := by
  induction added using List.reverseRecOn with
  | nil =>
      rw [List.append_nil]
      exact List.sublist_append_left _ _
  | append_singleton added x ih =>
      rw [← List.append_assoc, current_snoc, numbers_append, ← List.append_assoc]
      split
      · exact List.nil_sublist _
      · exact ih.append (List.Sublist.refl _)

/-- What is written on the last connection was so before, or is new. -/
theorem mem_current_append {n : Nat} (h : n ∈ current (log ++ added)) :
    n ∈ current log ∨ n ∈ numbers added :=
  List.mem_append.mp ((current_append_sublist log added).subset h)

/-- A request stays the last one with its packet, unless another one gets it. -/
theorem AskedAs.append {start : Core} {p : Packet} {n : Nat} (h : AskedAs start log p n)
    (hother : start.Identified →
      RoomyAfter start.inFlight.length (log.map Prod.fst ++ added.map Prod.fst) →
      p.awaitsAnswer = true → p.fresh ∉ queued (added.map Prod.fst)) :
    AskedAs start (log ++ added) p n := by
  obtain ⟨hget, hlast⟩ := h
  have hlt : n < (asked start log).length := (List.getElem?_eq_some_iff.mp hget).1
  rw [AskedAs, asked_append, List.map_append]
  refine ⟨by rw [List.getElem?_append_left hlt, hget], ?_⟩
  intro hstart hroomy hawaits later hlater
  rcases Nat.lt_or_ge later (asked start log).length with hbefore | hafter
  · rw [List.getElem?_append_left hbefore]
    exact hlast hstart (always_append_iff.mp hroomy).1 hawaits later hlater
  · rw [List.getElem?_append_right hafter]
    exact fun heq => hother hstart hroomy hawaits (List.mem_of_getElem? heq)

/-- Nothing changes when a packet becomes a duplicate. -/
theorem AskedAs.of_fresh {start : Core} {p q : Packet} {n : Nat} (h : AskedAs start log p n)
    (hfresh : p.fresh = q.fresh) : AskedAs start log q n := by
  unfold AskedAs at h ⊢
  rw [← hfresh, ← Packet.awaitsAnswer_fresh, ← hfresh, Packet.awaitsAnswer_fresh]
  exact h

/-- Events that concern no request can be attributed to anything. -/
theorem exists_quiet {events : List Event} (h : ∀ e ∈ events, e.concernsRequest = false) :
    ∃ added : List (Event × Nat), added.map Prod.fst = events ∧
      ∀ x ∈ added, x.1.concernsRequest = false := by
  refine ⟨events.map (·, 0), ?_, ?_⟩
  · rw [List.map_map]
    exact List.map_id events
  · intro x hx
    obtain ⟨e, he, rfl⟩ := List.mem_map.mp hx
    exact h e he

/-- What is numbered is split where it is split without numbers. -/
theorem exists_split {α : Type} {numbered : List (α × Nat)} {front back : List α} {a : α}
    (h : numbered.map Prod.fst = front ++ a :: back) :
    ∃ front' n back', numbered = front' ++ (a, n) :: back' ∧
      front'.map Prod.fst = front ∧ back'.map Prod.fst = back := by
  obtain ⟨front', rest, rfl, hfront, hrest⟩ := List.map_eq_append_iff.mp h
  obtain ⟨⟨a', n⟩, back', rfl, rfl, hback⟩ := List.map_eq_cons_iff.mp hrest
  exact ⟨front', n, back', rfl, hfront, hback⟩

/-- The number of a request is less than that of the next one. -/
theorem AskedAs.lt {start : Core} {p : Packet} {n : Nat} (h : AskedAs start log p n) :
    n < (asked start log).length :=
  (List.getElem?_eq_some_iff.mp h.1).1

end Log

end Mqtt
