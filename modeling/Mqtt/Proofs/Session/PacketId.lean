import Mathlib.Data.List.Nodup
import Mathlib.Data.List.Perm.Subperm
import Mathlib.Logic.Function.Iterate
import Mqtt.Session.PacketId

/-!
# `Mqtt.Proofs.Session.PacketId`: a free identifier is found

`IdAllocator.following` goes round the identifiers from 1 to 65534. From
wherever it starts it comes to each of them within 65534 steps
(`IdAllocator.exists_iterate_following`), so `IdAllocator.seek`, which
looks at that many, finds one that is free.

* `IdAllocator.exists_free`: fewer than 65534 identifiers leave one free.
* `IdAllocator.next_free`: what is handed out is then free, and between 1
  and 65534.
-/

set_option autoImplicit false

namespace Mqtt.IdAllocator

/-- The identifier that follows, as a number. -/
theorem toNat_following (i : UInt16) :
    (following i).toNat = if 65534 ≤ i.toNat then 1 else i.toNat + 1 := by
  unfold following
  by_cases hi : 65534 ≤ i.toNat
  · rw [if_pos hi, if_pos (show maxPacketId ≤ i from hi)]
    rfl
  · rw [if_neg hi, if_neg (show ¬ maxPacketId ≤ i from hi), UInt16.toNat_add,
      show (1 : UInt16).toNat = 1 from rfl]
    omega

/-- What follows is an identifier. -/
theorem following_range (i : UInt16) :
    1 ≤ (following i).toNat ∧ (following i).toNat ≤ 65534 := by
  rw [toNat_following]
  split <;> omega

/-- Below the greatest identifier, following counts up. -/
theorem toNat_iterate_following (i : UInt16) (k : Nat) (h : i.toNat + k ≤ 65534) :
    (following^[k] i).toNat = i.toNat + k := by
  induction k with
  | zero => rfl
  | succ k ih =>
      rw [Function.iterate_succ_apply', toNat_following, ih (by omega), if_neg (by omega)]
      omega

/-- Following comes to every identifier within one round. -/
theorem exists_iterate_following (i target : UInt16) (hlow : 1 ≤ target.toNat)
    (hhigh : target.toNat ≤ 65534) :
    ∃ k, 1 ≤ k ∧ k ≤ 65534 ∧ following^[k] i = target := by
  by_cases hlt : i.toNat < target.toNat
  · refine ⟨target.toNat - i.toNat, by omega, by omega, UInt16.toNat_inj.mp ?_⟩
    rw [toNat_iterate_following i _ (by omega)]
    omega
  · -- Up to the greatest identifier, on to 1, and from there to the target.
    refine ⟨target.toNat + (65534 - i.toNat), by omega, by omega, UInt16.toNat_inj.mp ?_⟩
    obtain ⟨n, hn⟩ : ∃ n, target.toNat = n + 1 := ⟨target.toNat - 1, by omega⟩
    have htop : following (following^[65534 - i.toNat] i) = 1 := by
      apply UInt16.toNat_inj.mp
      rw [toNat_following]
      by_cases hi : i.toNat ≤ 65534
      · rw [toNat_iterate_following i _ (by omega), if_pos (by omega)]
        rfl
      · rw [show 65534 - i.toNat = 0 by omega, Function.iterate_zero_apply, if_pos (by omega)]
        rfl
    have hone : (1 : UInt16).toNat = 1 := rfl
    rw [Function.iterate_add_apply, hn, Function.iterate_succ_apply, htop,
      toNat_iterate_following 1 n (by omega)]
    omega

/-- What is found after looking at one or more is an identifier. -/
theorem seek_range (inUse : UInt16 → Bool) (tries : Nat) (i : UInt16) :
    1 ≤ (seek inUse (tries + 1) i).toNat ∧ (seek inUse (tries + 1) i).toNat ≤ 65534 := by
  induction tries generalizing i with
  | zero =>
      simp only [seek]
      split <;> exact following_range i
  | succ tries ih =>
      rw [seek]
      split
      · exact ih (following i)
      · exact following_range i

/-- Looking far enough finds one that is free. -/
theorem seek_free (inUse : UInt16 → Bool) (tries k : Nat) (i : UInt16) (hpos : 1 ≤ k)
    (hk : k ≤ tries) (hfree : inUse (following^[k] i) = false) :
    inUse (seek inUse tries i) = false := by
  induction tries generalizing i k with
  | zero => omega
  | succ tries ih =>
      rw [seek]
      by_cases huse : inUse (following i) = true
      · rw [if_pos huse]
        cases k with
        | zero => omega
        | succ k =>
            -- The one that is free is not the first one, so it is further on.
            rw [Function.iterate_succ_apply] at hfree
            have hk0 : k ≠ 0 := by
              rintro rfl
              cases huse.symm.trans hfree
            exact ih k (following i) (by omega) (by omega) hfree
      · rw [if_neg huse]
        exact Bool.eq_false_iff.mpr huse

/-- The number of an identifier is the number that it was made of. -/
theorem toNat_toUInt16 {n : Nat} (h : n < 65536) : n.toUInt16.toNat = n :=
  UInt16.toNat_ofNat_of_lt' h

/-- The identifiers are distinct. -/
theorem nodup_identifiers : ((List.range' 1 65534).map Nat.toUInt16).Nodup := by
  refine List.Nodup.map_on ?_ List.nodup_range'
  intro m hm n hn heq
  have hm' := List.mem_range'_1.mp hm
  have hn' := List.mem_range'_1.mp hn
  rw [← toNat_toUInt16 (show m < 65536 by omega), heq, toNat_toUInt16 (by omega)]

/-- Fewer than 65534 identifiers leave one free. -/
theorem exists_free (taken : List UInt16) (h : taken.length < 65534) :
    ∃ i : UInt16, 1 ≤ i.toNat ∧ i.toNat ≤ 65534 ∧ i ∉ taken := by
  -- Otherwise all the identifiers, which are distinct, would be taken.
  by_contra hnone
  have hall : (List.range' 1 65534).map Nat.toUInt16 ⊆ taken := by
    intro i hi
    obtain ⟨n, hn, rfl⟩ := List.mem_map.mp hi
    have hrange := List.mem_range'_1.mp hn
    have hval := toNat_toUInt16 (show n < 65536 by omega)
    by_contra hfree
    exact hnone ⟨n.toUInt16, by omega, by omega, hfree⟩
  have hle := (List.subperm_of_subset nodup_identifiers hall).length_le
  rw [List.length_map, List.length_range'] at hle
  omega

/-- What is handed out is an identifier, and it is free if one is. -/
theorem next_free (ids : IdAllocator) (inUse : UInt16 → Bool) :
    1 ≤ (ids.next inUse).1.toNat ∧ (ids.next inUse).1.toNat ≤ 65534 ∧
      ((∃ i : UInt16, 1 ≤ i.toNat ∧ i.toNat ≤ 65534 ∧ inUse i = false) →
        inUse (ids.next inUse).1 = false) := by
  have hrange := seek_range inUse 65533 ids.last
  refine ⟨hrange.1, hrange.2, ?_⟩
  rintro ⟨i, hlow, hhigh, hfree⟩
  obtain ⟨k, hpos, hk, hi⟩ := exists_iterate_following ids.last i hlow hhigh
  exact seek_free inUse 65534 k ids.last hpos hk (hi ▸ hfree)

end Mqtt.IdAllocator
