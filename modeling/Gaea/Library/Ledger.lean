import Mathlib.Data.Multiset.AddSub
import Mathlib.Data.Multiset.UnionInter
import Mathlib.Data.Set.Basic

/-!
# Ledgers

Resources are taken and given back. Each one that is taken is held, by exactly one holder, or it is
a stray, which nobody holds and so nobody gives back.
-/

namespace Ledger

variable {R : Type*}

structure Balanced (taken : Set R) (held : Multiset R) (stray : Set R) : Prop where
  nodup : held.Nodup
  notMem_stray : ∀ r ∈ held, r ∉ stray
  taken_eq : taken = {r | r ∈ held} ∪ stray

namespace Balanced

variable {taken stray : Set R} {held : Multiset R}

/-- What is taken before anybody holds anything is astray. -/
theorem of_stray (taken : Set R) : Balanced taken 0 taken := by
  refine ⟨Multiset.nodup_zero, fun r hr => absurd hr (Multiset.notMem_zero r), ?_⟩
  simp

theorem mem_taken (h : Balanced taken held stray) {r : R} (hr : r ∈ held) : r ∈ taken := by
  rw [h.taken_eq]
  exact Or.inl hr

theorem mem_taken_of_stray (h : Balanced taken held stray) {r : R} (hr : r ∈ stray) :
    r ∈ taken := by
  rw [h.taken_eq]
  exact Or.inr hr

/-- What is held by two holders is not the same. -/
theorem ne_of_mem (h : Balanced taken held stray) {one other rest : Multiset R}
    (hheld : held = one + other + rest) {r r' : R} (hr : r ∈ one) (hr' : r' ∈ other) : r ≠ r' := by
  have hnodup := h.nodup
  rw [hheld, Multiset.nodup_add, Multiset.nodup_add] at hnodup
  rintro rfl
  exact Multiset.disjoint_left.mp hnodup.1.2.2 hr hr'

/-- A new holder takes what nobody has taken. -/
theorem take (h : Balanced taken held stray) {new : Multiset R} (hnodup : new.Nodup)
    (hfree : ∀ r ∈ new, r ∉ taken) : Balanced (taken ∪ {r | r ∈ new}) (held + new) stray := by
  constructor
  · rw [Multiset.nodup_add]
    refine ⟨h.nodup, hnodup, Multiset.disjoint_left.mpr fun hr hnew => ?_⟩
    exact hfree _ hnew (h.mem_taken hr)
  · intro r hr
    rcases Multiset.mem_add.mp hr with hr | hr
    · exact h.notMem_stray r hr
    · exact fun hstray => hfree r hr (h.mem_taken_of_stray hstray)
  · ext r
    simp only [h.taken_eq, Set.mem_union, Set.mem_ofPred_eq, Multiset.mem_add]
    exact or_right_comm

/-- What is taken, and not handed to a holder, goes astray. -/
theorem lose (h : Balanced taken held stray) {lost : Set R} (hfree : ∀ r ∈ lost, r ∉ taken) :
    Balanced (taken ∪ lost) held (stray ∪ lost) := by
  refine ⟨h.nodup, fun r hr => ?_, ?_⟩
  · rintro (hstray | hlost)
    · exact h.notMem_stray r hr hstray
    · exact hfree r hlost (h.mem_taken hr)
  · rw [h.taken_eq, Set.union_assoc]

/-- A holder gives back what it holds, and nothing else becomes free. -/
theorem giveBack {old : Multiset R} (h : Balanced taken (old + held) stray) :
    Balanced (taken \ {r | r ∈ old}) held stray := by
  obtain ⟨-, hnodup, hdisjoint⟩ := Multiset.nodup_add.mp h.nodup
  refine ⟨hnodup, fun r hr => h.notMem_stray r (Multiset.mem_add.mpr (Or.inr hr)), ?_⟩
  ext r
  simp only [h.taken_eq, Set.mem_sdiff, Set.mem_union, Set.mem_ofPred_eq, Multiset.mem_add]
  constructor
  · rintro ⟨(hold | hheld) | hstray, hnot⟩
    · exact absurd hold hnot
    · exact Or.inl hheld
    · exact Or.inr hstray
  · rintro (hheld | hstray)
    · exact ⟨Or.inl (Or.inr hheld), fun hold => Multiset.disjoint_left.mp hdisjoint hold hheld⟩
    · refine ⟨Or.inr hstray, fun hold => ?_⟩
      exact h.notMem_stray r (Multiset.mem_add.mpr (Or.inl hold)) hstray

end Balanced

end Ledger
