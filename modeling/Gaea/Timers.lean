import Gaea.Event
import Gaea.Library.BinaryHeap
import Mathlib.Data.Multiset.MapFold

/-!
# Timers

`Timers` is a heap of deadlines whose root is the earliest one, deadlines at the same instant being
ordered by their ids. A poll reads the clock once and takes deadlines off the heap until it meets
one that has not expired or the sink is full.
-/

namespace Gaea

open Collections

/-- A deadline, ordered by `deadline`, then `id`. -/
structure Deadline where
  deadline : Instant
  id : Id
deriving DecidableEq, Repr

namespace Deadline

theorem toLex_injective :
    Function.Injective fun d : Deadline => toLex (d.deadline, d.id) := by
  rintro ⟨_, _⟩ ⟨_, _⟩ h
  simp only [EmbeddingLike.apply_eq_iff_eq, Prod.mk.injEq] at h
  rw [h.1, h.2]

instance : LinearOrder Deadline :=
  LinearOrder.lift' (fun d => toLex (d.deadline, d.id)) toLex_injective

theorem le_iff {d e : Deadline} :
    d ≤ e ↔ d.deadline < e.deadline ∨ d.deadline = e.deadline ∧ d.id ≤ e.id :=
  Prod.lex_def

theorem deadline_le_of_le {d e : Deadline} (h : d ≤ e) : d.deadline ≤ e.deadline := by
  rcases le_iff.mp h with hlt | ⟨heq, -⟩
  · exact hlt.le
  · exact heq.le

def toEvent (d : Deadline) : Event := ⟨d.id, Ready.timer⟩

end Deadline

/-- Timer readiness queue: a maximum heap under the reversed order, so that the root is the earliest
deadline. -/
structure Timers where
  deadlines : BinaryHeap Deadlineᵒᵈ
deriving DecidableEq

namespace Timers

def new : Timers := ⟨BinaryHeap.new⟩

/-- The deadlines that have been added and neither removed nor delivered. -/
def pending (timers : Timers) : Multiset Deadline :=
  timers.deadlines.toMultiset.map OrderDual.ofDual

def peek (timers : Timers) : Option Deadline := timers.deadlines.peek.map OrderDual.ofDual

def pop (timers : Timers) : Option (Deadline × Timers) :=
  timers.deadlines.pop.map fun popped => (OrderDual.ofDual popped.1, ⟨popped.2⟩)

def addDeadline (timers : Timers) (id : Id) (deadline : Instant) : Timers :=
  ⟨timers.deadlines.push (OrderDual.toDual ⟨deadline, id⟩)⟩

/-- Add a new timeout. The sum is `none` where the standard library would panic. -/
def addTimeout (timers : Timers) (id : Id) (timeout : Duration) (now : Instant) : Option Timers :=
  (now.add timeout).map (timers.addDeadline id)

def position (timers : Timers) (id : Id) : Option (Fin timers.deadlines.intoVec.size) :=
  timers.deadlines.intoVec.findFinIdx? fun deadline => (OrderDual.ofDual deadline).id == id

/-- Remove a previously added deadline: the heap is taken apart and built again without it. -/
def removeDeadline (timers : Timers) (id : Id) : Timers :=
  match timers.position id with
  | some index => ⟨BinaryHeap.ofVec (swapRemove timers.deadlines.intoVec index index.isLt)⟩
  | none => timers

def timeUntil (deadline now : Instant) : Duration :=
  if h : deadline ≤ now then Duration.zero else deadline.durationSince now (not_le.mp h).le

/-- The clock is only read when there is a deadline. -/
def maxTimeout {W : Type} [Clock W] (timers : Timers) (world : W) : Option Duration × W :=
  match timers.peek with
  | some deadline =>
      (some (timeUntil deadline.deadline (Clock.now world).1), (Clock.now world).2)
  | none => (none, world)

/-- The loop of `poll`, which makes at most the given number of rounds. -/
def pollLoop {ES : Type} [Sink ES] (now : Instant) : Nat → Timers → ES → Timers × ES
  | 0, timers, sink => (timers, sink)
  | rounds + 1, timers, sink =>
      match timers.peek with
      | some deadline =>
          if deadline.deadline ≤ now then
            match timers.pop with
            | some (deadline, rest) =>
                pollLoop now rounds rest (Sink.add sink deadline.toEvent)
            -- never taken: there is an entry to pop after a successful `peek`
            | none => (timers, sink)
          else (timers, sink)
      | none => (timers, sink)

/-- The number of rounds is read off the sink before the first event is added. -/
def poll {ES : Type} [Sink ES] (now : Instant) (timers : Timers) (sink : ES) : Timers × ES :=
  pollLoop now ((Sink.capacityLeft sink).min timers.deadlines.len) timers sink

instance {ES E W : Type} [Sink ES] [Clock W] : Source Timers ES E W where
  maxTimeout timers world := timers.maxTimeout world
  poll timers sink world :=
    ⟨(timers.poll (Clock.now world).1 sink).1, (timers.poll (Clock.now world).1 sink).2,
      (Clock.now world).2, .ok ()⟩

end Timers

end Gaea
