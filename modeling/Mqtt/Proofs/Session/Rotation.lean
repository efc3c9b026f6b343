import Mqtt.Proofs.Session.PacketId

/-!
# `Mqtt.Proofs.Session.Rotation`: identifiers are handed out in turn

All identifiers, in the order in which they follow one of them, are a round
(`IdAllocator.round`). Going on to the next identifier takes the first entry of
the round to its end (`IdAllocator.round_following`), and everything about
`IdAllocator.seek` follows from that one step.

* `IdAllocator.seek_eq`: what is found is the first entry of the round that is
  free, or the last entry that was looked at.
* `IdAllocator.handed_out_in_turn`: identifiers that are handed out one after
  the other are the free entries of the round, in the order of the round.
* `IdAllocator.stays_when_full`: when no identifier is free, the last one is
  handed out again, and not the one that follows it.
-/

set_option autoImplicit false

namespace Mqtt.IdAllocator

/-! ### The states of an allocator -/

/-- What an allocator can be: a new one, or one that handed out identifiers. -/
inductive Reached : IdAllocator → Prop where
  | new : Reached .new
  | next {ids : IdAllocator} (inUse : UInt16 → Bool) (h : Reached ids) :
      Reached (ids.next inUse).2

/-- An allocator can stand at every identifier, and at 0. -/
theorem reached_iff {ids : IdAllocator} : Reached ids ↔ ids.last.toNat ≤ 65534 := by
  constructor
  · intro h
    cases h with
    | new => exact Nat.zero_le _
    | @next ids inUse h => exact (next_free ids inUse).2.1
  · intro hlast
    by_cases hzero : ids.last = 0
    · rw [show ids = .new from congrArg IdAllocator.mk hzero]
      exact .new
    · -- A new allocator comes there in one step when no other identifier is free.
      have hpos : 1 ≤ ids.last.toNat := by
        have hne : ids.last.toNat ≠ 0 := fun h => hzero (UInt16.toNat_inj.mp h)
        omega
      have hfree := (next_free .new fun i => i ≠ ids.last).2.2 ⟨ids.last, hpos, hlast, by simp⟩
      have hnext : (new.next fun i => i ≠ ids.last).1 = ids.last := by simpa using hfree
      rw [show ids = (new.next fun i => i ≠ ids.last).2 from congrArg IdAllocator.mk hnext.symm]
      exact .next _ .new

/-! ### The round -/

/-- All identifiers, in the order in which they follow `last`: up to 65534, and
from 1 up to `last`. -/
def round (last : UInt16) : List UInt16 :=
  (List.range' (last.toNat + 1) (65534 - last.toNat) ++ List.range' 1 last.toNat).map Nat.toUInt16

variable {i last : UInt16}

/-- A round holds the identifiers, in some order. -/
theorem round_perm (h : last.toNat ≤ 65534) :
    (round last).Perm ((List.range' 1 65534).map Nat.toUInt16) := by
  have hall : List.range' 1 65534
      = List.range' 1 last.toNat ++ List.range' (last.toNat + 1) (65534 - last.toNat) := by
    rw [Nat.add_comm last.toNat 1, List.range'_append_1]
    congr 1
    omega
  rw [hall]
  exact List.perm_append_comm.map _

/-- Every identifier is in a round, and nothing else is. -/
theorem mem_round_iff (h : last.toNat ≤ 65534) :
    i ∈ round last ↔ 1 ≤ i.toNat ∧ i.toNat ≤ 65534 := by
  rw [(round_perm h).mem_iff, List.mem_map]
  constructor
  · rintro ⟨n, hn, rfl⟩
    have hrange := List.mem_range'_1.mp hn
    rw [toNat_toUInt16 (by omega)]
    omega
  · rintro ⟨hlow, hhigh⟩
    exact ⟨i.toNat, List.mem_range'_1.mpr (by omega), UInt16.ofNat_toNat⟩

/-- No identifier is in it twice. -/
theorem nodup_round (h : last.toNat ≤ 65534) : (round last).Nodup :=
  (round_perm h).nodup_iff.mpr nodup_identifiers

/-- So it has 65534 entries. -/
theorem length_round (h : last.toNat ≤ 65534) : (round last).length = 65534 := by
  rw [(round_perm h).length_eq, List.length_map, List.length_range']

/-- Going on takes the first entry of a round to its end. -/
theorem round_following {a : UInt16} {later : List UInt16} (hi : i.toNat ≤ 65534)
    (h : round i = a :: later) : following i = a ∧ round a = later ++ [a] := by
  rcases Nat.lt_or_eq_of_le hi with hlt | htop
  -- The first entry is the successor, as long as there is a greater one.
  · have hnext : (i.toNat + 1).toUInt16 = following i := by
      apply UInt16.toNat_inj.mp
      rw [toNat_following, if_neg (by omega), toNat_toUInt16 (by omega)]
    obtain ⟨k, hk⟩ : ∃ k, 65534 - i.toNat = k + 1 := ⟨65533 - i.toNat, by omega⟩
    rw [round, hk, List.range'_succ, List.cons_append, List.map_cons, hnext] at h
    obtain ⟨rfl, rfl⟩ := List.cons.inj h
    refine ⟨rfl, ?_⟩
    have hnat : (following i).toNat = i.toNat + 1 := by
      rw [toNat_following, if_neg (by omega)]
    rw [round, hnat, show 65534 - (i.toNat + 1) = k by omega, List.range'_1_concat,
      ← List.append_assoc, List.map_append, List.map_singleton, Nat.add_comm 1 i.toNat, hnext]
  · -- Behind the greatest identifier comes 1.
    have hone : following i = 1 := by
      apply UInt16.toNat_inj.mp
      rw [toNat_following, if_pos (by omega)]
      rfl
    rw [round, htop, show 65534 - 65534 = 0 from rfl, List.range'_zero, List.nil_append,
      List.range'_succ, List.map_cons] at h
    obtain ⟨rfl, rfl⟩ := List.cons.inj h
    refine ⟨hone, ?_⟩
    show (List.range' 2 65533 ++ List.range' 1 1).map Nat.toUInt16 = _
    rw [List.map_append]
    rfl

/-- Going on to an entry of a round takes all up to it to the end. -/
theorem round_of_split {a : UInt16} {front back : List UInt16} (hi : i.toNat ≤ 65534)
    (h : round i = front ++ a :: back) : round a = back ++ front ++ [a] := by
  induction front generalizing i back with
  | nil => exact (round_following hi h).2.trans (by simp)
  | cons b front ih =>
      obtain ⟨hb, hround⟩ := round_following hi h
      have hrange : b.toNat ≤ 65534 := hb ▸ (following_range i).2
      have hlater : round b = front ++ a :: (back ++ [b]) := by simp [hround]
      rw [ih hrange hlater]
      simp

/-! ### What is found -/

/-- Looking at the first entries of a round finds the first one that is free. If
none is, it ends at the last one of them. -/
theorem seek_eq (inUse : UInt16 → Bool) {ahead behind : List UInt16} (hi : i.toNat ≤ 65534)
    (h : round i = ahead ++ behind) :
    seek inUse ahead.length i = (ahead.find? fun j => !inUse j).getD (ahead.getLastD i) := by
  induction ahead generalizing i behind with
  | nil => rfl
  | cons a ahead ih =>
      obtain ⟨ha, hround⟩ := round_following hi h
      have hrange : a.toNat ≤ 65534 := ha ▸ (following_range i).2
      rw [List.length_cons, seek, ha]
      by_cases huse : inUse a = true
      · rw [if_pos huse, List.find?_cons_of_neg (by simp [huse]), List.getLastD_cons]
        exact ih hrange (hround.trans (List.append_assoc _ _ _))
      · rw [if_neg huse, List.find?_cons_of_pos (by simpa using huse)]
        rfl

variable {ids : IdAllocator} {inUse : UInt16 → Bool}

/-- What is handed out is looked for in one round. -/
theorem next_eq (h : ids.last.toNat ≤ 65534) :
    (ids.next inUse).1
      = ((round ids.last).find? fun i => !inUse i).getD ((round ids.last).getLastD ids.last) := by
  rw [← seek_eq inUse h (List.append_nil _).symm, length_round h]
  rfl

/-- A round ends where it was started, and a new allocator's at 65534. -/
theorem getLastD_round : (round last).getLastD last = if last = 0 then maxPacketId else last := by
  by_cases hzero : last = 0
  · rw [hzero, if_pos rfl]
    show ((List.range' 1 65534 ++ []).map Nat.toUInt16).getLastD 0 = maxPacketId
    rw [List.append_nil, List.range'_1_concat, List.map_append, List.map_singleton,
      List.getLastD_concat]
    rfl
  · have hne : last.toNat ≠ 0 := fun h => hzero (UInt16.toNat_inj.mp h)
    obtain ⟨k, hk⟩ : ∃ k, last.toNat = k + 1 := Nat.exists_eq_succ_of_ne_zero hne
    have hlast : (1 + k).toUInt16 = last := by
      rw [Nat.add_comm, ← hk]
      exact UInt16.ofNat_toNat
    rw [if_neg hzero, round, hk, List.range'_1_concat, ← List.append_assoc, List.map_append,
      List.map_singleton, List.getLastD_concat, hlast]

/-! ### One after the other -/

/-- What `n` calls hand out, one after the other, while the same identifiers are
in use. -/
def handOut (inUse : UInt16 → Bool) : (n : Nat) → IdAllocator → List UInt16
  | 0, _ => []
  | n + 1, ids => (ids.next inUse).1 :: handOut inUse n (ids.next inUse).2

/-- How many identifiers are free. -/
def freeCount (inUse : UInt16 → Bool) : Nat :=
  (List.range' 1 65534).countP fun n => !inUse n.toUInt16

/-- The free entries of a round are all that are free. -/
theorem length_filter_round (h : last.toNat ≤ 65534) :
    ((round last).filter fun i => !inUse i).length = freeCount inUse := by
  rw [← List.countP_eq_length_filter, (round_perm h).countP_eq, List.countP_map]
  rfl

/-- The first free entry of a round is handed out, and goes to the end of those
that are free. -/
theorem next_of_filter {a : UInt16} {later : List UInt16} (h : ids.last.toNat ≤ 65534)
    (hfree : ((round ids.last).filter fun i => !inUse i) = a :: later) :
    (ids.next inUse).1 = a ∧ ((round a).filter fun i => !inUse i) = later ++ [a] := by
  obtain ⟨front, back, hround, hfront, ha, hback⟩ := List.filter_eq_cons_iff.mp hfree
  have hfind : (round ids.last).find? (fun i => !inUse i) = some a :=
    List.find?_eq_some_iff_append.mpr ⟨ha, front, back, hround, by simpa using hfront⟩
  constructor
  · rw [next_eq h, hfind]
    rfl
  · have hused : (front.filter fun i => !inUse i) = [] := List.filter_eq_nil_iff.mpr hfront
    have hself : ([a].filter fun i => !inUse i) = [a] := by simpa using ha
    rw [round_of_split h hround, List.filter_append, List.filter_append, hback, hused, hself,
      List.append_nil]

/-- As many identifiers as are free are handed out in the order of the round. -/
theorem handOut_eq (n : Nat) (h : ids.last.toNat ≤ 65534) (hn : n ≤ freeCount inUse) :
    handOut inUse n ids = ((round ids.last).filter fun i => !inUse i).take n := by
  induction n generalizing ids with
  | zero => rfl
  | succ n ih =>
      cases hfree : (round ids.last).filter fun i => !inUse i with
      | nil =>
          rw [← length_filter_round h, hfree] at hn
          cases hn
      | cons a later =>
          obtain ⟨hnext, hagain⟩ := next_of_filter h hfree
          -- The next call starts at `a`, and its round ends with `a`.
          have hlast : (ids.next inUse).2.last = a := hnext
          have hrange : (ids.next inUse).2.last.toNat ≤ 65534 := (next_free ids inUse).2.1
          have hlength : n ≤ later.length := by
            rw [← length_filter_round h, hfree, List.length_cons] at hn
            omega
          rw [handOut, hnext, ih hrange (by omega), hlast, hagain,
            List.take_append_of_le_length hlength, List.take_succ_cons]

/-- Identifiers are handed out in turn. While one is free, the first one that is
free in the round behind the last one is handed out. As many as are free are
handed out one after the other in the order of the round, and no two of them are
the same. -/
theorem handed_out_in_turn (h : Reached ids) (inUse : UInt16 → Bool) :
    ((∃ i : UInt16, 1 ≤ i.toNat ∧ i.toNat ≤ 65534 ∧ inUse i = false) →
      (round ids.last).find? (fun i => !inUse i) = some (ids.next inUse).1 ∧
        1 ≤ (ids.next inUse).1.toNat ∧ (ids.next inUse).1.toNat ≤ 65534) ∧
    ∀ n ≤ freeCount inUse,
      handOut inUse n ids = ((round ids.last).filter fun i => !inUse i).take n ∧
        (handOut inUse n ids).Nodup := by
  have hlast := reached_iff.mp h
  refine ⟨?_, fun n hn => ?_⟩
  · rintro ⟨i, hlow, hhigh, hfree⟩
    have hmem : i ∈ (round ids.last).filter fun i => !inUse i :=
      List.mem_filter.mpr ⟨(mem_round_iff hlast).mpr ⟨hlow, hhigh⟩, by simp [hfree]⟩
    have hrange := next_free ids inUse
    refine ⟨?_, hrange.1, hrange.2.1⟩
    -- The free identifiers in the order of the round; the head is the one that is found.
    cases hround : (round ids.last).filter fun i => !inUse i with
    | nil =>
        rw [hround] at hmem
        cases hmem
    | cons a later =>
        rw [(next_of_filter hlast hround).1, ← List.head?_filter, hround]
        rfl
  · rw [handOut_eq n hlast hn]
    exact ⟨rfl, ((nodup_round hlast).filter _).sublist (List.take_sublist _ _)⟩

/-- Whether an identifier is in use where 65534, 1 and 2 are. -/
def isEdge (i : UInt16) : Bool :=
  i = 65534 || i ≤ 2

/-- Behind 65533, the next identifier and the first two are in use: the round goes
on to 1 before a free one is found. -/
theorem handed_out_in_turn_edge :
    Reached ⟨65533⟩ ∧ (∃ i : UInt16, 1 ≤ i.toNat ∧ i.toNat ≤ 65534 ∧ isEdge i = false) ∧
      2 ≤ freeCount isEdge ∧
      (next ⟨65533⟩ isEdge).1 = 3 ∧ handOut isEdge 2 ⟨65533⟩ = [3, 4] := by
  have hreached : Reached ⟨65533⟩ := reached_iff.mpr (by decide)
  have hfree : ∃ i : UInt16, 1 ≤ i.toNat ∧ i.toNat ≤ 65534 ∧ isEdge i = false :=
    ⟨3, by decide⟩
  have hcount : 2 ≤ freeCount isEdge := by
    have hsplit : List.range' 1 65534 = List.range' 1 4 ++ List.range' 5 65530 := by
      rw [show 5 = 1 + 4 from rfl, List.range'_append_1]
    rw [freeCount, hsplit, List.countP_append]
    exact Nat.le_add_right_of_le (by decide)
  obtain ⟨hnext, hrun⟩ := handed_out_in_turn hreached isEdge
  have hfirst : (round 65533).find? (fun i => !isEdge i) = some 3 := by decide +kernel
  have hrow : ((round 65533).filter fun i => !isEdge i).take 2 = [3, 4] := by decide +kernel
  exact ⟨hreached, hfree, hcount, (Option.some.inj (hfirst.symm.trans (hnext hfree).1)).symm,
    (hrun 2 hcount).1.trans hrow⟩

/-! ### No identifier is free -/

/-- When every identifier is in use, a round is looked through to its end. -/
theorem next_of_full (h : ids.last.toNat ≤ 65534)
    (hfull : ∀ i : UInt16, 1 ≤ i.toNat → i.toNat ≤ 65534 → inUse i = true) :
    (ids.next inUse).1 = if ids.last = 0 then maxPacketId else ids.last := by
  have hnone : (round ids.last).find? (fun i => !inUse i) = none := by
    refine List.find?_eq_none.mpr fun i hi => ?_
    obtain ⟨hlow, hhigh⟩ := (mem_round_iff h).mp hi
    simp [hfull i hlow hhigh]
  rw [next_eq h, hnone, Option.getD_none, getLastD_round]

/-- From then on the same identifier is handed out. -/
theorem handOut_of_full (n : Nat) (h : ids.last.toNat ≤ 65534)
    (hfull : ∀ i : UInt16, 1 ≤ i.toNat → i.toNat ≤ 65534 → inUse i = true) :
    handOut inUse n ids = List.replicate n (ids.next inUse).1 := by
  induction n generalizing ids with
  | zero => rfl
  | succ n ih =>
      obtain ⟨hlow, hhigh, -⟩ := next_free ids inUse
      have hne : (ids.next inUse).1 ≠ 0 := by
        intro hzero
        rw [hzero] at hlow
        cases hlow
      -- The next round starts at an identifier, so it ends there too.
      have hrange : (ids.next inUse).2.last.toNat ≤ 65534 := hhigh
      have hstay : ((ids.next inUse).2.next inUse).1 = (ids.next inUse).1 :=
        (next_of_full hrange hfull).trans (if_neg hne)
      rw [handOut, ih hrange, hstay, List.replicate_succ]

/-- When every identifier is in use, an allocator does not go on: the last
identifier is handed out once more, and a new allocator hands out 65534. It is
never the one that follows, and every later call hands out the same one again. -/
theorem stays_when_full (h : Reached ids) (inUse : UInt16 → Bool)
    (hfull : ∀ i : UInt16, 1 ≤ i.toNat → i.toNat ≤ 65534 → inUse i = true) :
    (ids.next inUse).1 = (if ids.last = 0 then maxPacketId else ids.last) ∧
      (ids.next inUse).1 ≠ following ids.last ∧
      ∀ n, handOut inUse n ids = List.replicate n (ids.next inUse).1 := by
  have hlast := reached_iff.mp h
  have hnext := next_of_full hlast hfull
  refine ⟨hnext, fun heq => ?_, fun n => handOut_of_full n hlast hfull⟩
  have hfollowing := congrArg UInt16.toNat (hnext.symm.trans heq)
  rw [toNat_following] at hfollowing
  by_cases hzero : ids.last = 0
  · rw [if_pos hzero, hzero] at hfollowing
    cases hfollowing
  · rw [if_neg hzero] at hfollowing
    split at hfollowing <;> omega

/-- Behind the greatest identifier it is that one again, and not 1. -/
theorem stays_when_full_greatest :
    Reached ⟨65534⟩ ∧
      (∀ i : UInt16, 1 ≤ i.toNat → i.toNat ≤ 65534 → (fun _ => true : UInt16 → Bool) i = true) ∧
      (next ⟨65534⟩ fun _ => true).1 = 65534 ∧ following 65534 = 1 ∧
      handOut (fun _ => true) 3 ⟨65534⟩ = [65534, 65534, 65534] := by
  have hreached : Reached ⟨65534⟩ := reached_iff.mpr (by decide)
  obtain ⟨hnext, -, hrun⟩ := stays_when_full hreached (fun _ => true) fun _ _ _ => rfl
  exact ⟨hreached, fun _ _ _ => rfl, hnext, by decide, (hrun 3).trans (by rw [hnext]; decide)⟩

/-- After five identifiers, with all in use, the fifth one is handed out three
times over. In sequence they would be 6, 7 and 8. -/
theorem full_repeats_fifth :
    handOut (fun _ => false) 5 .new = [1, 2, 3, 4, 5] ∧
      (∀ i : UInt16, 1 ≤ i.toNat → i.toNat ≤ 65534 → (fun _ => true : UInt16 → Bool) i = true) ∧
      Reached ⟨5⟩ ∧ following 5 = 6 ∧
      (next ⟨5⟩ fun _ => true).1 = 5 ∧ handOut (fun _ => true) 3 ⟨5⟩ = [5, 5, 5] := by
  have hlast : (⟨5⟩ : IdAllocator).last.toNat ≤ 65534 := by decide
  have hnext : (next ⟨5⟩ fun _ => true).1 = 5 := next_of_full hlast fun _ _ _ => rfl
  have hrun : handOut (fun _ => true) 3 ⟨5⟩ = List.replicate 3 (next ⟨5⟩ fun _ => true).1 :=
    handOut_of_full 3 hlast fun _ _ _ => rfl
  exact ⟨by decide +kernel, fun _ _ _ => rfl, reached_iff.mpr hlast, by decide, hnext,
    hrun.trans (by rw [hnext]; decide)⟩

end Mqtt.IdAllocator
