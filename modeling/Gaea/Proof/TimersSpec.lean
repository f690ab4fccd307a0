import Gaea.Timers
import Mathlib.Data.Multiset.Filter
import Mathlib.Data.Multiset.Sort

/-!
# What the timers do to their pending deadlines

Everything about `Timers` is stated over the multiset `pending` and the list `ready now` of the
deadlines that have expired at `now`, earliest first. The heap is not seen past this module.
-/

namespace Gaea.Timers

open Collections

variable {ES : Type} [Sink ES] {timers rest : Timers} {d e : Deadline}

/-! ## The heap operations -/

@[simp]
theorem pending_new : new.pending = 0 := rfl

@[simp]
theorem pending_addDeadline (timers : Timers) (id : Id) (deadline : Instant) :
    (timers.addDeadline id deadline).pending = ⟨deadline, id⟩ ::ₘ timers.pending := by
  rw [pending, addDeadline, BinaryHeap.toMultiset_push, Multiset.map_cons]
  rfl

theorem card_pending (timers : Timers) : timers.pending.card = timers.deadlines.len := by
  rw [pending, Multiset.card_map, BinaryHeap.card_toMultiset]

theorem peek_eq_none_iff : timers.peek = none ↔ timers.pending = 0 := by
  rw [peek, Option.map_eq_none_iff, BinaryHeap.peek_eq_none_iff, pending, Multiset.map_eq_zero]

theorem mem_of_peek (hpeek : timers.peek = some d) : d ∈ timers.pending := by
  obtain ⟨root, hroot, rfl⟩ := Option.map_eq_some_iff.mp hpeek
  exact Multiset.mem_map_of_mem _ (BinaryHeap.mem_of_peek_eq_some hroot)

theorem le_of_peek (hpeek : timers.peek = some d) (he : e ∈ timers.pending) : d ≤ e := by
  obtain ⟨root, hroot, rfl⟩ := Option.map_eq_some_iff.mp hpeek
  obtain ⟨entry, hentry, rfl⟩ := Multiset.mem_map.mp he
  exact BinaryHeap.le_of_peek_eq_some hroot hentry

theorem peek_of_le (hd : d ∈ timers.pending) (hmin : ∀ e ∈ timers.pending, d ≤ e) :
    timers.peek = some d := by
  cases hpeek : timers.peek with
  | none =>
      rw [peek_eq_none_iff.mp hpeek] at hd
      cases Multiset.notMem_zero d hd
  | some e => rw [le_antisymm (le_of_peek hpeek hd) (hmin e (mem_of_peek hpeek))]

theorem pop_eq_none_iff : timers.pop = none ↔ timers.pending = 0 := by
  rw [pop, Option.map_eq_none_iff, BinaryHeap.pop_eq_none_iff, pending, Multiset.map_eq_zero]

theorem peek_of_pop (hpop : timers.pop = some (d, rest)) : timers.peek = some d := by
  obtain ⟨⟨root, heap⟩, hroot, hd⟩ := Option.map_eq_some_iff.mp hpop
  rw [Prod.mk.injEq] at hd
  rw [peek, BinaryHeap.peek_of_pop_eq_some hroot, ← hd.1]
  rfl

theorem pending_of_pop (hpop : timers.pop = some (d, rest)) :
    timers.pending = d ::ₘ rest.pending := by
  obtain ⟨⟨root, heap⟩, hroot, hd⟩ := Option.map_eq_some_iff.mp hpop
  rw [Prod.mk.injEq] at hd
  rw [pending, BinaryHeap.toMultiset_of_pop_eq_some hroot, Multiset.map_cons, hd.1, ← hd.2]
  rfl

theorem exists_pop_of_peek (hpeek : timers.peek = some d) :
    ∃ rest, timers.pop = some (d, rest) := by
  cases hpop : timers.pop with
  | none =>
      have hempty := peek_eq_none_iff.mpr (pop_eq_none_iff.mp hpop)
      rw [hpeek] at hempty
      cases hempty
  | some popped =>
      have hd := peek_of_pop hpop
      rw [hpeek, Option.some.injEq] at hd
      exact ⟨popped.2, by rw [hd]⟩

/-! ## Removal -/

theorem pending_eq_map_intoVec (timers : Timers) :
    timers.pending = (timers.deadlines.intoVec.toList.map OrderDual.ofDual : List Deadline) := rfl

theorem position_eq_none_iff {id : Id} :
    timers.position id = none ↔ ∀ d ∈ timers.pending, d.id ≠ id := by
  rw [position, Array.findFinIdx?_eq_none_iff, pending_eq_map_intoVec]
  simp

theorem pending_removeDeadline_of_position {id : Id} {index : Fin timers.deadlines.intoVec.size}
    (hposition : timers.position id = some index) :
    timers.pending
      = OrderDual.ofDual timers.deadlines.intoVec[index]
        ::ₘ (timers.removeDeadline id).pending := by
  have hperm := perm_swapRemove timers.deadlines.intoVec index index.isLt
  rw [removeDeadline, hposition, pending_eq_map_intoVec, pending, BinaryHeap.toMultiset_ofVec,
    Multiset.map_coe, Multiset.cons_coe, Multiset.coe_eq_coe]
  exact hperm.map OrderDual.ofDual

theorem pending_removeDeadline_of_mem {id : Id} (hmem : ∃ d ∈ timers.pending, d.id = id) :
    ∃ d, d.id = id ∧ timers.pending = d ::ₘ (timers.removeDeadline id).pending := by
  cases hposition : timers.position id with
  | none =>
      obtain ⟨d, hd, hid⟩ := hmem
      exact absurd hid (position_eq_none_iff.mp hposition d hd)
  | some index =>
      have hid := (Array.findFinIdx?_eq_some_iff.mp hposition).1
      exact ⟨_, by simpa using hid, pending_removeDeadline_of_position hposition⟩

/-- The search for an id starts at the root. -/
theorem pending_removeDeadline_of_peek (hpeek : timers.peek = some d) {id : Id} (hid : d.id = id) :
    timers.pending = d ::ₘ (timers.removeDeadline id).pending := by
  obtain ⟨root, hroot, rfl⟩ := Option.map_eq_some_iff.mp hpeek
  obtain ⟨h0, hdata⟩ := Array.getElem?_eq_some_iff.mp hroot
  have hposition : timers.position id = some ⟨0, h0⟩ := by
    rw [position, Array.findFinIdx?_eq_some_iff]
    refine ⟨?_, fun j hj => absurd hj (Nat.not_lt_zero _)⟩
    simpa [BinaryHeap.intoVec, hdata] using hid
  rw [pending_removeDeadline_of_position hposition]
  exact congrArg (OrderDual.ofDual · ::ₘ _) hdata

theorem removeDeadline_of_notMem {id : Id} (hnone : ∀ d ∈ timers.pending, d.id ≠ id) :
    timers.removeDeadline id = timers := by
  rw [removeDeadline, position_eq_none_iff.mpr hnone]

/-! ## Polling -/

/-- The deadlines that have expired at `now`, earliest first. -/
def ready (now : Instant) (timers : Timers) : List Deadline :=
  (timers.pending.filter fun d => d.deadline ≤ now).sort

theorem coe_ready (now : Instant) (timers : Timers) :
    (timers.ready now : Multiset Deadline) = timers.pending.filter fun d => d.deadline ≤ now :=
  Multiset.sort_eq _ _

theorem mem_ready {now : Instant} :
    d ∈ timers.ready now ↔ d ∈ timers.pending ∧ d.deadline ≤ now := by
  rw [← Multiset.mem_coe, coe_ready, Multiset.mem_filter]

theorem length_ready_le (now : Instant) (timers : Timers) :
    (timers.ready now).length ≤ timers.deadlines.len := by
  rw [← Multiset.coe_card, coe_ready, ← card_pending]
  exact Multiset.card_le_card (Multiset.filter_le _ _)

theorem ready_of_peek_not_expired {now : Instant} (hpeek : timers.peek = some d)
    (hlate : ¬ d.deadline ≤ now) : timers.ready now = [] := by
  rw [List.eq_nil_iff_forall_not_mem]
  intro e he
  obtain ⟨hpending, hexpired⟩ := mem_ready.mp he
  apply hlate
  calc d.deadline ≤ e.deadline := Deadline.deadline_le_of_le (le_of_peek hpeek hpending)
    _ ≤ now := hexpired

theorem ready_of_peek_none {now : Instant} (hpeek : timers.peek = none) :
    timers.ready now = [] := by
  rw [ready, peek_eq_none_iff.mp hpeek, Multiset.filter_zero, Multiset.sort_zero]

theorem ready_of_pop {now : Instant} (hpop : timers.pop = some (d, rest))
    (hexpired : d.deadline ≤ now) : timers.ready now = d :: rest.ready now := by
  have hpending := pending_of_pop hpop
  have hfilter : (d ::ₘ rest.pending).filter (fun d => d.deadline ≤ now)
      = d ::ₘ rest.pending.filter fun d => d.deadline ≤ now :=
    Multiset.filter_cons_of_pos _ hexpired
  rw [ready, hpending, hfilter, Multiset.sort_cons]
  · rfl
  · intro e he
    refine le_of_peek (peek_of_pop hpop) ?_
    rw [hpending]
    exact Multiset.mem_cons_of_mem (Multiset.mem_of_mem_filter he)

/-- The loop hands over the first deadlines that are ready, at most one a round, and leaves the
others. -/
theorem pollLoop_spec (now : Instant) (rounds : Nat) (timers : Timers) (sink : ES) :
    (pollLoop now rounds timers sink).2
        = (((timers.ready now).take rounds).map Deadline.toEvent).foldl Sink.add sink
      ∧ timers.pending
        = ((timers.ready now).take rounds : List Deadline)
          + (pollLoop now rounds timers sink).1.pending
      ∧ (pollLoop now rounds timers sink).1.ready now = (timers.ready now).drop rounds := by
  induction rounds generalizing timers sink with
  | zero => simp [pollLoop]
  | succ rounds ih =>
      rw [pollLoop]
      cases hpeek : timers.peek with
      | none => simp [ready_of_peek_none hpeek]
      | some d =>
          by_cases hexpired : d.deadline ≤ now
          · obtain ⟨rest, hpop⟩ := exists_pop_of_peek hpeek
            obtain ⟨hsink, hpending, hready⟩ := ih rest (Sink.add sink d.toEvent)
            simp only [hexpired, if_true, hpop, ready_of_pop hpop hexpired, List.take_succ_cons,
              List.drop_succ_cons, pending_of_pop hpop]
            refine ⟨hsink, ?_, hready⟩
            rw [← Multiset.cons_coe, Multiset.cons_add, ← hpending]
          · simp [hexpired, ready_of_peek_not_expired hpeek hexpired]

def delivered (now : Instant) (timers : Timers) (sink : ES) : List Deadline :=
  (Sink.capacityLeft sink).take (timers.ready now)

theorem poll_sink (now : Instant) (timers : Timers) (sink : ES) :
    (timers.poll now sink).2
      = ((timers.delivered now sink).map Deadline.toEvent).foldl Sink.add sink := by
  rw [poll, (pollLoop_spec _ _ timers sink).1, Capacity.take_min _ (length_ready_le now timers),
    delivered]

/-- What a poll delivers and what it leaves is what was pending. -/
theorem pending_poll (now : Instant) (timers : Timers) (sink : ES) :
    timers.pending = timers.delivered now sink + (timers.poll now sink).1.pending := by
  rw [delivered, ← Capacity.take_min _ (length_ready_le now timers)]
  exact (pollLoop_spec now _ timers sink).2.1

theorem ready_poll (now : Instant) (timers : Timers) (sink : ES) :
    (timers.poll now sink).1.ready now = (Sink.capacityLeft sink).drop (timers.ready now) := by
  rw [poll, (pollLoop_spec _ _ timers sink).2.2, Capacity.drop_min _ (length_ready_le now timers)]

end Gaea.Timers
