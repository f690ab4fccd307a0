import Mathlib.Data.Multiset.AddSub
import Mathlib.Order.Lattice

/-!
# Array backed binary heaps

The priority queue of the standard library: a maximum heap stored level by level in an array, where
the parent of position `i` is position `(i - 1) / 2`. Pushing sifts the new last entry up. Popping
moves the last entry to the root, takes it all the way to the bottom along the greater children, and
sifts it back up from there. Rebuilding an arbitrary array sifts down every position that has a
child, from the last to the first.

Clients reason about a heap through its multiset of entries: every operation says what it does to
that multiset, and `peek` is a greatest entry.
-/

namespace Collections

universe u

variable {α : Type u} [LinearOrder α]

def parent (i : Nat) : Nat := (i - 1) / 2

theorem parent_lt {i : Nat} (hi : 0 < i) : parent i < i := by
  unfold parent
  omega

omit [LinearOrder α] in
theorem parent_lt_size {data : Array α} {i : Nat} (hi : i < data.size) : parent i < data.size := by
  unfold parent
  omega

theorem parent_eq_iff {i pos : Nat} (hi : 0 < i) :
    parent i = pos ↔ i = 2 * pos + 1 ∨ i = 2 * pos + 2 := by
  unfold parent
  omega

def Ordered (data : Array α) (i : Nat) : Prop :=
  ∀ hi : i < data.size, 0 < i → data[i] ≤ getElem data (parent i) (parent_lt_size hi)

def IsHeap (data : Array α) : Prop := ∀ i, Ordered data i

/-- The children of `pos` are at most the parent of `pos`, so either of them may take its place. -/
def GrandOrdered (data : Array α) (pos : Nat) : Prop :=
  ∀ i, ∀ hi : i < data.size, 0 < i → 0 < pos → parent i = pos →
    data[i] ≤ getElem data (parent (parent i)) (parent_lt_size (parent_lt_size hi))

/-! ## The sifts -/

/-- Take the entry at `pos` up while it is greater than its parent. -/
def siftUp (data : Array α) (pos : Nat) (hpos : pos < data.size) : Array α :=
  if hroot : 0 < pos then
    if data[pos] ≤ getElem data (parent pos) (parent_lt_size hpos) then data
    else
      siftUp (data.swap pos (parent pos) hpos (parent_lt_size hpos)) (parent pos)
        (by rw [Array.size_swap]; exact parent_lt_size hpos)
  else data
termination_by pos
decreasing_by exact parent_lt hroot

def greaterChild (data : Array α) (pos : Nat) (hleft : 2 * pos + 1 < data.size) : Nat :=
  if hright : 2 * pos + 2 < data.size then
    if data[2 * pos + 1] ≤ data[2 * pos + 2] then 2 * pos + 2 else 2 * pos + 1
  else 2 * pos + 1

theorem greaterChild_lt (data : Array α) (pos : Nat) (hleft : 2 * pos + 1 < data.size) :
    greaterChild data pos hleft < data.size := by
  unfold greaterChild
  split_ifs <;> assumption

theorem parent_greaterChild (data : Array α) (pos : Nat) (hleft : 2 * pos + 1 < data.size) :
    0 < greaterChild data pos hleft ∧ parent (greaterChild data pos hleft) = pos := by
  unfold greaterChild parent
  split_ifs <;> omega

theorem lt_greaterChild (data : Array α) (pos : Nat) (hleft : 2 * pos + 1 < data.size) :
    pos < greaterChild data pos hleft := by
  unfold greaterChild
  split_ifs <;> omega

theorem le_greaterChild (data : Array α) (pos : Nat) (hleft : 2 * pos + 1 < data.size)
    {i : Nat} (hi : i < data.size) (hi0 : 0 < i) (hparent : parent i = pos) :
    data[i] ≤ getElem data (greaterChild data pos hleft) (greaterChild_lt data pos hleft) := by
  unfold greaterChild
  rcases (parent_eq_iff hi0).mp hparent with rfl | rfl
  · split_ifs with hright hle
    · exact hle
    · exact le_rfl
    · exact le_rfl
  · split_ifs with hle
    · exact le_rfl
    · exact (not_le.mp hle).le

/-- Take the entry at `pos` down while it is less than its greater child. -/
def siftDown (data : Array α) (pos : Nat) (hpos : pos < data.size) : Array α :=
  if hleft : 2 * pos + 1 < data.size then
    if getElem data (greaterChild data pos hleft) (greaterChild_lt data pos hleft) ≤ data[pos] then
      data
    else
      siftDown
        (data.swap pos (greaterChild data pos hleft) hpos (greaterChild_lt data pos hleft))
        (greaterChild data pos hleft)
        (by rw [Array.size_swap]; exact greaterChild_lt data pos hleft)
  else data
termination_by data.size - pos
decreasing_by
  have := lt_greaterChild data pos hleft
  rw [Array.size_swap]
  omega

/-- Take the entry at `pos` down to a leaf along the greater children, whatever its value, and sift
it up from there. -/
def siftDownToBottom (data : Array α) (pos : Nat) (hpos : pos < data.size) : Array α :=
  if hleft : 2 * pos + 1 < data.size then
    siftDownToBottom
      (data.swap pos (greaterChild data pos hleft) hpos (greaterChild_lt data pos hleft))
      (greaterChild data pos hleft)
      (by rw [Array.size_swap]; exact greaterChild_lt data pos hleft)
  else siftUp data pos hpos
termination_by data.size - pos
decreasing_by
  have := lt_greaterChild data pos hleft
  rw [Array.size_swap]
  omega

def rebuildBelow (data : Array α) : Nat → Array α
  | 0 => data
  | n + 1 =>
      if hn : n < data.size then rebuildBelow (siftDown data n hn) n else rebuildBelow data n

def rebuild (data : Array α) : Array α := rebuildBelow data (data.size / 2)

/-! ### The sifts permute the array -/

theorem siftUp_perm (data : Array α) (pos : Nat) (hpos : pos < data.size) :
    (siftUp data pos hpos).Perm data := by
  induction data, pos, hpos using siftUp.induct with
  | case1 data pos hpos hroot hle =>
      rw [siftUp, dif_pos hroot, if_pos hle]
  | case2 data pos hpos hroot hle ih =>
      rw [siftUp, dif_pos hroot, if_neg hle]
      exact ih.trans (Array.swap_perm hpos (parent_lt_size hpos))
  | case3 data pos hpos hroot =>
      rw [siftUp, dif_neg hroot]

theorem siftDown_perm (data : Array α) (pos : Nat) (hpos : pos < data.size) :
    (siftDown data pos hpos).Perm data := by
  induction data, pos, hpos using siftDown.induct with
  | case1 data pos hpos hleft hle =>
      rw [siftDown, dif_pos hleft, if_pos hle]
  | case2 data pos hpos hleft hle ih =>
      rw [siftDown, dif_pos hleft, if_neg hle]
      exact ih.trans (Array.swap_perm hpos (greaterChild_lt data pos hleft))
  | case3 data pos hpos hleft =>
      rw [siftDown, dif_neg hleft]

theorem siftDownToBottom_perm (data : Array α) (pos : Nat) (hpos : pos < data.size) :
    (siftDownToBottom data pos hpos).Perm data := by
  induction data, pos, hpos using siftDownToBottom.induct with
  | case1 data pos hpos hleft ih =>
      rw [siftDownToBottom, dif_pos hleft]
      exact ih.trans (Array.swap_perm hpos (greaterChild_lt data pos hleft))
  | case2 data pos hpos hleft =>
      rw [siftDownToBottom, dif_neg hleft]
      exact siftUp_perm data pos hpos

theorem rebuildBelow_perm (data : Array α) (n : Nat) : (rebuildBelow data n).Perm data := by
  induction n generalizing data with
  | zero => exact Array.Perm.refl data
  | succ n ih =>
      rw [rebuildBelow]
      split_ifs with hn
      · exact (ih _).trans (siftDown_perm data n hn)
      · exact ih data

theorem rebuild_perm (data : Array α) : (rebuild data).Perm data :=
  rebuildBelow_perm data (data.size / 2)

/-! ### The sifts restore the order -/

/-- Only the entry at `pos` may exceed its parent. -/
structure UpReady (data : Array α) (pos : Nat) : Prop where
  ordered : ∀ i, i ≠ pos → Ordered data i
  grand : GrandOrdered data pos

theorem UpReady.swap_parent {data : Array α} {pos : Nat} (hpos : pos < data.size)
    (h : UpReady data pos) (hroot : 0 < pos)
    (hlt : getElem data (parent pos) (parent_lt_size hpos) < data[pos]) :
    UpReady (data.swap pos (parent pos) hpos (parent_lt_size hpos)) (parent pos) := by
  have hp := parent_lt hroot
  constructor
  · intro i hne hi hi0
    rw [Array.size_swap] at hi
    have hold := fun hne => h.ordered i hne hi hi0
    have hgrand := h.grand i hi hi0 hroot
    simp only [Array.getElem_swap]
    grind
  · intro i hi hi0 hp0 hparent
    rw [Array.size_swap] at hi
    have hold := fun hne => h.ordered i hne hi hi0
    have hup := h.ordered (parent pos) hp.ne (parent_lt_size hpos) hp0
    have hpp := parent_lt hp0
    simp only [Array.getElem_swap]
    grind

theorem siftUp_isHeap {data : Array α} {pos : Nat} (hpos : pos < data.size)
    (h : UpReady data pos) : IsHeap (siftUp data pos hpos) := by
  induction data, pos, hpos using siftUp.induct with
  | case1 data pos hpos hroot hle =>
      rw [siftUp, dif_pos hroot, if_pos hle]
      intro i
      by_cases hi : i = pos
      · subst hi
        exact fun _ _ => hle
      · exact h.ordered i hi
  | case2 data pos hpos hroot hle ih =>
      rw [siftUp, dif_pos hroot, if_neg hle]
      exact ih (h.swap_parent hpos hroot (not_le.mp hle))
  | case3 data pos hpos hroot =>
      rw [siftUp, dif_neg hroot]
      intro i
      by_cases hi : i = pos
      · subst hi
        exact fun _ hi0 => absurd hi0 hroot
      · exact h.ordered i hi

/-- Only the pairs that touch `pos` may be out of order. -/
structure HoleReady (data : Array α) (pos : Nat) : Prop where
  ordered : ∀ i, i ≠ pos → parent i ≠ pos → Ordered data i
  grand : GrandOrdered data pos

theorem HoleReady.swap_greaterChild {data : Array α} {pos : Nat} (hpos : pos < data.size)
    (h : HoleReady data pos) (hleft : 2 * pos + 1 < data.size) :
    HoleReady
      (data.swap pos (greaterChild data pos hleft) hpos (greaterChild_lt data pos hleft))
      (greaterChild data pos hleft) := by
  obtain ⟨hc0, hcp⟩ := parent_greaterChild data pos hleft
  have hc := lt_greaterChild data pos hleft
  have hmax := fun i (hi : i < data.size) => le_greaterChild data pos hleft hi
  generalize_proofs hcs at *
  generalize greaterChild data pos hleft = child at *
  constructor
  · intro i hne hpne hi hi0
    rw [Array.size_swap] at hi
    have hold := fun hne hpne => h.ordered i hne hpne hi hi0
    have hgrand := h.grand child hcs hc0
    have hi' := hmax i hi hi0
    simp only [Array.getElem_swap]
    grind
  · intro i hi hi0 hc0' hparent
    rw [Array.size_swap] at hi
    have hip := parent_lt hi0
    have hold := h.ordered i (by omega) (by omega) hi hi0
    simp only [Array.getElem_swap]
    grind

theorem siftDownToBottom_isHeap {data : Array α} {pos : Nat} (hpos : pos < data.size)
    (h : HoleReady data pos) : IsHeap (siftDownToBottom data pos hpos) := by
  induction data, pos, hpos using siftDownToBottom.induct with
  | case1 data pos hpos hleft ih =>
      rw [siftDownToBottom, dif_pos hleft]
      exact ih (h.swap_greaterChild hpos hleft)
  | case2 data pos hpos hleft =>
      rw [siftDownToBottom, dif_neg hleft]
      -- a leaf has no children, so nothing is left to check below it
      refine siftUp_isHeap hpos ⟨fun i hi his hi0 => ?_, h.grand⟩
      refine h.ordered i hi (fun hparent => ?_) his hi0
      have := (parent_eq_iff hi0).mp hparent
      omega

/-- Every entry whose parent is at `n` or later, and is not at `pos`, is at most its parent. -/
structure DownReady (data : Array α) (n pos : Nat) : Prop where
  ordered : ∀ i, n ≤ parent i → parent i ≠ pos → Ordered data i
  grand : n ≤ parent pos → GrandOrdered data pos

def HeapFrom (data : Array α) (n : Nat) : Prop := ∀ i, n ≤ parent i → Ordered data i

theorem DownReady.swap_greaterChild {data : Array α} {n pos : Nat} (hpos : pos < data.size)
    (hn : n ≤ pos) (h : DownReady data n pos) (hleft : 2 * pos + 1 < data.size)
    (hlt : data[pos]
      < getElem data (greaterChild data pos hleft) (greaterChild_lt data pos hleft)) :
    DownReady
      (data.swap pos (greaterChild data pos hleft) hpos (greaterChild_lt data pos hleft)) n
      (greaterChild data pos hleft) := by
  obtain ⟨hc0, hcp⟩ := parent_greaterChild data pos hleft
  have hc := lt_greaterChild data pos hleft
  have hmax := fun i (hi : i < data.size) => le_greaterChild data pos hleft hi
  generalize_proofs hcs at *
  generalize greaterChild data pos hleft = child at *
  constructor
  · intro i hni hpne hi hi0
    rw [Array.size_swap] at hi
    have hold := fun hpne => h.ordered i hni hpne hi hi0
    have hgrand := fun hn => h.grand hn child hcs hc0
    have hi' := hmax i hi hi0
    simp only [Array.getElem_swap]
    grind
  · intro hnc i hi hi0 hc0' hparent
    rw [Array.size_swap] at hi
    have hip := parent_lt hi0
    have hold := h.ordered i (by omega) (by omega) hi hi0
    simp only [Array.getElem_swap]
    grind

theorem siftDown_heapFrom {data : Array α} {n pos : Nat} (hpos : pos < data.size) (hn : n ≤ pos)
    (h : DownReady data n pos) : HeapFrom (siftDown data pos hpos) n := by
  induction data, pos, hpos using siftDown.induct with
  | case1 data pos hpos hleft hle =>
      rw [siftDown, dif_pos hleft, if_pos hle]
      intro i hni hi hi0
      by_cases hparent : parent i = pos
      · subst hparent
        exact (le_greaterChild data _ hleft hi hi0 rfl).trans hle
      · exact h.ordered i hni hparent hi hi0
  | case2 data pos hpos hleft hle ih =>
      rw [siftDown, dif_pos hleft, if_neg hle]
      have hc := lt_greaterChild data pos hleft
      exact ih (by omega) (h.swap_greaterChild hpos hn hleft (not_le.mp hle))
  | case3 data pos hpos hleft =>
      rw [siftDown, dif_neg hleft]
      intro i hni hi hi0
      refine h.ordered i hni (fun hparent => ?_) hi hi0
      have := (parent_eq_iff hi0).mp hparent
      omega

theorem rebuildBelow_isHeap {data : Array α} {n : Nat} (h : HeapFrom data n) :
    IsHeap (rebuildBelow data n) := by
  induction n generalizing data with
  | zero => exact fun i => h i (Nat.zero_le _)
  | succ n ih =>
      rw [rebuildBelow]
      split_ifs with hn
      · refine ih (siftDown_heapFrom hn le_rfl ⟨fun i hni hne => h i (by omega), ?_⟩)
        intro hnp i hi hi0 hn0
        have := parent_lt hn0
        omega
      · refine ih (fun i hni hi hi0 => ?_)
        have := parent_lt hi0
        omega

theorem rebuild_isHeap (data : Array α) : IsHeap (rebuild data) := by
  refine rebuildBelow_isHeap (fun i hni hi hi0 => ?_)
  unfold parent at hni
  omega

theorem IsHeap.le_root {data : Array α} (h : IsHeap data) {i : Nat} (hi : i < data.size) :
    data[i] ≤ getElem data 0 (Nat.zero_lt_of_lt hi) := by
  induction i using Nat.strong_induction_on with
  | h i ih =>
      by_cases hi0 : 0 < i
      · have hparent := parent_lt_size hi
        calc data[i] ≤ data[parent i] := h i hi hi0
          _ ≤ getElem data 0 (Nat.zero_lt_of_lt hi) := ih (parent i) (parent_lt hi0) hparent
      · obtain rfl : i = 0 := by omega
        exact le_rfl

/-! ## Removal from a vector -/

/-- Remove the entry at `index`, the last entry taking its place. -/
def swapRemove {β : Type u} (data : Array β) (index : Nat) (h : index < data.size) : Array β :=
  (data.swap index (data.size - 1) h (by omega)).pop

theorem perm_swapRemove {β : Type u} (data : Array β) (index : Nat) (h : index < data.size) :
    data.toList.Perm (data[index] :: (swapRemove data index h).toList) := by
  have hlast : data.size - 1 < data.size := by omega
  have hperm : (data.swap index (data.size - 1) h hlast).toList.Perm data.toList :=
    Array.perm_iff_toList_perm.mp (Array.swap_perm h hlast)
  have hne : (data.swap index (data.size - 1) h hlast).toList ≠ [] := by
    rw [ne_eq, ← List.length_eq_zero_iff, Array.length_toList, Array.size_swap]
    omega
  have hsplit : (swapRemove data index h).toList ++ [data[index]]
      = (data.swap index (data.size - 1) h hlast).toList := by
    rw [← List.dropLast_append_getLast hne]
    simp [swapRemove, List.getLast_eq_getElem]
  exact (hsplit ▸ hperm).symm.trans (List.perm_append_singleton _ _)

/-! ## Heaps -/

/-- A maximum heap: an array that carries the proof of its order. -/
structure BinaryHeap (α : Type u) [LinearOrder α] where
  data : Array α
  isHeap : IsHeap data
deriving DecidableEq

namespace BinaryHeap

def new : BinaryHeap α := ⟨#[], fun _ hi => absurd hi (Nat.not_lt_zero _)⟩

def len (h : BinaryHeap α) : Nat := h.data.size

def peek (h : BinaryHeap α) : Option α := h.data[0]?

def push (h : BinaryHeap α) (x : α) : BinaryHeap α where
  data := siftUp (h.data.push x) h.data.size (by simp)
  isHeap := by
    refine siftUp_isHeap _ ⟨fun i hne hi hi0 => ?_, fun i hi hi0 _ hparent => ?_⟩
    · rw [Array.size_push] at hi
      have hlt : i < h.data.size := by omega
      rw [Array.getElem_push_lt hlt, Array.getElem_push_lt (parent_lt_size hlt)]
      exact h.isHeap i hlt hi0
    · have := parent_lt hi0
      rw [Array.size_push] at hi
      omega

def dropLast (h : BinaryHeap α) : BinaryHeap α where
  data := h.data.pop
  isHeap := by
    intro i hi hi0
    rw [Array.size_pop] at hi
    rw [Array.getElem_pop, Array.getElem_pop]
    exact h.isHeap i (by omega) hi0

/-- The heap with `x` in place of its root: `x` goes to the bottom and is sifted up from there. -/
def replaceRoot (h : BinaryHeap α) (x : α) (h0 : 0 < h.data.size) : BinaryHeap α where
  data := siftDownToBottom (h.data.set 0 x) 0 (by rwa [Array.size_set])
  isHeap := by
    refine siftDownToBottom_isHeap _ ⟨fun i hne hpne hi hi0 => ?_, fun _ _ _ hpos => ?_⟩
    · rw [Array.size_set] at hi
      rw [Array.getElem_set_ne _ _ hi0.ne, Array.getElem_set_ne _ _ (Ne.symm hpne)]
      exact h.isHeap i hi hi0
    · exact absurd hpos (Nat.lt_irrefl 0)

/-- Take a greatest entry off: the last entry takes the place of the root. -/
def pop (h : BinaryHeap α) : Option (α × BinaryHeap α) :=
  if hsize : 0 < h.data.size then
    let item := h.data[h.data.size - 1]
    if hrest : 0 < h.dropLast.data.size then
      some (h.dropLast.data[0], h.dropLast.replaceRoot item hrest)
    else some (item, h.dropLast)
  else none

def intoVec (h : BinaryHeap α) : Array α := h.data

def ofVec (data : Array α) : BinaryHeap α := ⟨rebuild data, rebuild_isHeap data⟩

/-- The entries, without the order of the array. -/
def toMultiset (h : BinaryHeap α) : Multiset α := h.data.toList

theorem toMultiset_eq_of_perm {h : BinaryHeap α} {data : Array α} (hperm : h.data.Perm data) :
    h.toMultiset = data.toList :=
  Multiset.coe_eq_coe.mpr (Array.perm_iff_toList_perm.mp hperm)

@[simp]
theorem card_toMultiset (h : BinaryHeap α) : h.toMultiset.card = h.len := by
  simp [toMultiset, len]

@[simp]
theorem toMultiset_push (h : BinaryHeap α) (x : α) :
    (h.push x).toMultiset = x ::ₘ h.toMultiset := by
  rw [toMultiset_eq_of_perm (siftUp_perm _ _ _), Array.toList_push, ← Multiset.coe_add,
    Multiset.add_comm]
  rfl

@[simp]
theorem toMultiset_ofVec (data : Array α) : (ofVec data).toMultiset = data.toList :=
  toMultiset_eq_of_perm (rebuild_perm data)

theorem peek_eq_none_iff {h : BinaryHeap α} : h.peek = none ↔ h.toMultiset = 0 := by
  simp [peek, toMultiset]

theorem mem_of_peek_eq_some {h : BinaryHeap α} {x : α} (hpeek : h.peek = some x) :
    x ∈ h.toMultiset := by
  obtain ⟨h0, hx⟩ := Array.getElem?_eq_some_iff.mp hpeek
  simp [toMultiset, ← hx]

theorem le_of_peek_eq_some {h : BinaryHeap α} {x : α} (hpeek : h.peek = some x) {y : α}
    (hy : y ∈ h.toMultiset) : y ≤ x := by
  obtain ⟨h0, hx⟩ := Array.getElem?_eq_some_iff.mp hpeek
  obtain ⟨i, hi, rfl⟩ := Array.getElem_of_mem (Array.mem_toList_iff.mp hy)
  exact hx ▸ h.isHeap.le_root hi

theorem cons_dropLast {h : BinaryHeap α} (hsize : 0 < h.data.size) :
    h.data[h.data.size - 1] ::ₘ h.dropLast.toMultiset = h.toMultiset := by
  have hne : h.data.toList ≠ [] := by
    rw [ne_eq, ← List.length_eq_zero_iff, Array.length_toList]
    omega
  have hsplit : h.data.toList.dropLast ++ [h.data[h.data.size - 1]] = h.data.toList := by
    rw [← List.dropLast_append_getLast hne]
    simp [List.getLast_eq_getElem]
  rw [toMultiset, toMultiset, ← hsplit, ← Multiset.coe_add, Multiset.add_comm]
  simp [dropLast]

theorem cons_replaceRoot (h : BinaryHeap α) (x : α) (h0 : 0 < h.data.size) :
    h.data[0] ::ₘ (h.replaceRoot x h0).toMultiset = x ::ₘ h.toMultiset := by
  rw [toMultiset_eq_of_perm (siftDownToBottom_perm _ _ _), Array.toList_set, toMultiset]
  obtain ⟨root, rest, hdata⟩ := List.exists_cons_of_length_pos (Array.length_toList ▸ h0)
  have hroot : h.data[0] = root := by simp [← Array.getElem_toList, hdata]
  rw [hdata, List.set_cons_zero, hroot, ← Multiset.cons_coe, ← Multiset.cons_coe,
    Multiset.cons_swap]

theorem pop_eq_none_iff {h : BinaryHeap α} : h.pop = none ↔ h.toMultiset = 0 := by
  rw [← Multiset.card_eq_zero, card_toMultiset, len]
  unfold pop
  dsimp only
  split_ifs with hsize hrest
  · simp [hsize.ne']
  · simp [hsize.ne']
  · simp only [true_iff]
    omega

theorem toMultiset_of_pop_eq_some {h rest : BinaryHeap α} {x : α} (hpop : h.pop = some (x, rest)) :
    h.toMultiset = x ::ₘ rest.toMultiset := by
  unfold pop at hpop
  dsimp only at hpop
  split_ifs at hpop with hsize hrest
  · simp only [Option.some.injEq, Prod.mk.injEq] at hpop
    obtain ⟨rfl, rfl⟩ := hpop
    rw [cons_replaceRoot, cons_dropLast hsize]
  · simp only [Option.some.injEq, Prod.mk.injEq] at hpop
    obtain ⟨rfl, rfl⟩ := hpop
    exact (cons_dropLast hsize).symm

theorem peek_of_pop_eq_some {h rest : BinaryHeap α} {x : α} (hpop : h.pop = some (x, rest)) :
    h.peek = some x := by
  unfold pop at hpop
  dsimp only at hpop
  split_ifs at hpop with hsize hrest
  · simp only [Option.some.injEq, Prod.mk.injEq] at hpop
    simp [peek, ← hpop.1, dropLast]
  · simp only [Option.some.injEq, Prod.mk.injEq] at hpop
    have hone : h.data.size = 1 := by
      simp only [dropLast, Array.size_pop] at hrest
      omega
    simp [peek, ← hpop.1, hone]

end BinaryHeap

end Collections
