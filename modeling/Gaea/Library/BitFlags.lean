import Mathlib.Data.BitVec
import Mathlib.Data.Finset.Sort

/-!
# Sets of flags

A word stands for the set of the positions of the bits that are set in it. The operations on words
that programs use for flags are operations on these sets, and taking the lowest bit out of a word
over and over goes through its set in increasing order.
-/

namespace BitFlags

variable {w : Nat} {x y : BitVec w} {i : Nat}

def members (x : BitVec w) : Finset Nat := (Finset.range w).filter fun i => x.getLsbD i = true

theorem mem_members : i ∈ members x ↔ x.getLsbD i = true := by
  rw [members, Finset.mem_filter, Finset.mem_range]
  exact and_iff_right_of_imp BitVec.lt_of_getLsbD

theorem members_inj : members x = members y ↔ x = y := by
  refine ⟨fun h => BitVec.eq_of_getLsbD_eq fun i _ => ?_, congrArg members⟩
  rw [Bool.eq_iff_iff, ← mem_members, h, mem_members]

@[simp]
theorem members_zero : members (0#w) = ∅ := by
  ext i
  simp [mem_members]

@[simp]
theorem members_or (x y : BitVec w) : members (x ||| y) = members x ∪ members y := by
  ext i
  simp [mem_members]

theorem members_and (x y : BitVec w) : members (x &&& y) = members x ∩ members y := by
  ext i
  simp [mem_members]

theorem members_twoPow (hi : i < w) : members (BitVec.twoPow w i) = {i} := by
  ext j
  simp [mem_members, BitVec.getLsbD_twoPow, hi, eq_comm]

/-- The usual test that all the flags of `y` are in `x`. -/
theorem and_eq_right_iff : x &&& y = y ↔ members y ⊆ members x := by
  rw [← members_inj, members_and, Finset.inter_eq_right]

theorem card_members (x : BitVec w) : (members x).card = x.cpop.toNat := by
  have hcount (n : Nat) :
      ((Finset.range n).filter fun i => x.getLsbD i = true).card = x.cpopNatRec n 0 := by
    induction n with
    | zero => rfl
    | succ n ih =>
        rw [BitVec.cpopNatRec_succ, BitVec.cpopNatRec_add, ← ih, Finset.range_add_one,
          Finset.filter_insert]
        cases x.getLsbD n <;> simp
  rw [members, hcount, BitVec.toNat_cpop]

/-! ## The lowest flag -/

def clear (x : BitVec w) (i : Nat) : BitVec w := x &&& ~~~ BitVec.twoPow w i

theorem members_clear (x : BitVec w) (i : Nat) : members (clear x i) = (members x).erase i := by
  ext j
  rw [Finset.mem_erase, mem_members, mem_members, clear, BitVec.getLsbD_and, BitVec.getLsbD_not,
    BitVec.getLsbD_twoPow, Bool.and_eq_true]
  constructor
  · rintro ⟨hset, hkept⟩
    have hj : j < w := BitVec.lt_of_getLsbD hset
    refine ⟨?_, hset⟩
    rintro rfl
    simp [hj] at hkept
  · rintro ⟨hne, hset⟩
    have hj : j < w := BitVec.lt_of_getLsbD hset
    exact ⟨hset, by simp [hj, Ne.symm hne]⟩

theorem ctz_mem (hx : x ≠ 0#w) : x.ctz.toNat ∈ members x :=
  mem_members.mpr (BitVec.getLsbD_true_ctz_of_ne_zero hx)

theorem ctz_le (hi : i ∈ members x) : x.ctz.toNat ≤ i := by
  by_contra hlt
  rw [mem_members, BitVec.getLsbD_false_of_lt_ctz (not_le.mp hlt)] at hi
  cases hi

/-- The lowest flag comes first, and the others follow. -/
theorem sort_members (hx : x ≠ 0#w) :
    (members x).sort = x.ctz.toNat :: (members (clear x x.ctz.toNat)).sort := by
  rw [members_clear, ← Finset.sort_insert]
  · rw [Finset.insert_erase (ctz_mem hx)]
  · exact fun i hi => ctz_le (Finset.mem_of_mem_erase hi)
  · exact Finset.notMem_erase _ _

/-- The flags of a word, in increasing order. -/
theorem sort_members_eq_filter (x : BitVec w) :
    (members x).sort = (List.range w).filter fun i => x.getLsbD i := by
  have hnodup : ((List.range w).filter fun i => x.getLsbD i).Nodup := List.nodup_range.filter _
  have htoFinset : members x = ((List.range w).filter fun i => x.getLsbD i).toFinset := by
    ext i
    simp [members]
  rw [htoFinset]
  exact (List.toFinset_sort _ hnodup).mpr (List.pairwise_le_range.filter _)

end BitFlags
