import Gaea.Time
import Mathlib.Data.List.Basic
import Mathlib.Data.Prod.Lex

/-!
# Readiness events, event sinks and event sources

A source hands readiness events to a sink. The sink says how much room it has left, and a source may
not add more than that. Sources are also asked for the longest time that `poll` may block without
missing something they hold.
-/

namespace Gaea

/-- Identifier of an event, a `usize` on a 64 bit target. -/
structure Id where
  val : UInt64
deriving DecidableEq, Repr

theorem Id.toNat_injective : Function.Injective fun id : Id => id.val.toNat := by
  rintro ⟨x⟩ ⟨y⟩ h
  exact congrArg Id.mk (UInt64.toNat_inj.mp h)

instance : LinearOrder Id := LinearOrder.lift' (fun id => id.val.toNat) Id.toNat_injective

structure Ready where
  bits : UInt8
deriving DecidableEq, Repr

namespace Ready

def empty : Ready := ⟨0⟩

def readable : Ready := ⟨1⟩

def writable : Ready := ⟨(1 : UInt8) <<< 1⟩

def error : Ready := ⟨(1 : UInt8) <<< 2⟩

def timer : Ready := ⟨(1 : UInt8) <<< 3⟩

def hup : Ready := ⟨(1 : UInt8) <<< 4⟩

def contains (self other : Ready) : Bool := (self.bits &&& other.bits) == other.bits

def isReadable (self : Ready) : Bool := self.contains readable

def isWritable (self : Ready) : Bool := self.contains writable

instance : OrOp Ready := ⟨fun left right => ⟨left.bits ||| right.bits⟩⟩

end Ready

structure Event where
  id : Id
  readiness : Ready
deriving DecidableEq, Repr

/-- The capacity left in an event sink. -/
inductive Capacity where
  | limited (left : Nat)
  | growable
deriving DecidableEq, Repr

namespace Capacity

def min : Capacity → Nat → Nat
  | limited left, right => Nat.min left right
  | growable, right => right

def take {α : Type} : Capacity → List α → List α
  | limited left, events => events.take left
  | growable, events => events

def drop {α : Type} : Capacity → List α → List α
  | limited left, events => events.drop left
  | growable, _ => []

def sub : Capacity → Nat → Capacity
  | limited left, n => limited (left - n)
  | growable, _ => growable

variable {α : Type}

theorem min_le (capacity : Capacity) (n : Nat) : capacity.min n ≤ n := by
  cases capacity with
  | limited left => exact Nat.min_le_right left n
  | growable => exact le_rfl

/-- A bound of at least the number of events does not show in what is taken. -/
theorem take_min (capacity : Capacity) {events : List α} {n : Nat} (h : events.length ≤ n) :
    events.take (capacity.min n) = capacity.take events := by
  cases capacity with
  | limited left =>
      rw [min, take, List.take_eq_take_iff]
      change Min.min (Min.min left n) _ = _
      omega
  | growable => exact List.take_of_length_le h

theorem drop_min (capacity : Capacity) {events : List α} {n : Nat} (h : events.length ≤ n) :
    events.drop (capacity.min n) = capacity.drop events := by
  cases capacity with
  | limited left =>
      rw [min, drop, List.drop_eq_drop_iff]
      change Min.min (Min.min left n) _ = _
      omega
  | growable => exact List.drop_of_length_le h

@[simp]
theorem take_nil (capacity : Capacity) : capacity.take ([] : List α) = [] := by
  cases capacity <;> simp [take]

@[simp]
theorem drop_nil (capacity : Capacity) : capacity.drop ([] : List α) = [] := by
  cases capacity <;> simp [drop]

theorem take_eq_nil_iff {capacity : Capacity} (hroom : capacity ≠ .limited 0) {events : List α} :
    capacity.take events = [] ↔ events = [] := by
  cases capacity with
  | limited left =>
      have hleft : left ≠ 0 := fun hzero => hroom (congrArg limited hzero)
      rw [take, List.take_eq_nil_iff]
      exact or_iff_right hleft
  | growable => exact Iff.rfl

theorem take_append (capacity : Capacity) (first second : List α) :
    capacity.take (first ++ second)
      = capacity.take first ++ (capacity.sub first.length).take second := by
  cases capacity with
  | limited left => exact List.take_append
  | growable => rfl

theorem drop_append (capacity : Capacity) (first second : List α) :
    capacity.drop (first ++ second)
      = capacity.drop first ++ (capacity.sub first.length).drop second := by
  cases capacity with
  | limited left => exact List.drop_append
  | growable => rfl

theorem map_take {β : Type} (capacity : Capacity) (f : α → β) (events : List α) :
    (capacity.take events).map f = capacity.take (events.map f) := by
  cases capacity with
  | limited left => exact List.map_take
  | growable => rfl

theorem map_drop {β : Type} (capacity : Capacity) (f : α → β) (events : List α) :
    (capacity.drop events).map f = capacity.drop (events.map f) := by
  cases capacity with
  | limited left => exact List.map_drop
  | growable => rfl

end Capacity

/-! ## Sinks -/

class Sink (ES : Type) where
  capacityLeft : ES → Capacity
  add : ES → Event → ES
  extend : ES → List Event → ES := fun sink events => events.foldl add sink

/-- A sink that takes events one at a time, and whose capacity is growable or falls by exactly one
with every event added. -/
class LawfulSink (ES : Type) [Sink ES] : Prop where
  extend_eq_foldl (sink : ES) (events : List Event) :
    Sink.extend sink events = events.foldl Sink.add sink
  capacityLeft_add_of_growable (sink : ES) (event : Event) :
    Sink.capacityLeft sink = .growable → Sink.capacityLeft (Sink.add sink event) = .growable
  capacityLeft_add_of_limited (sink : ES) (event : Event) (left : Nat) :
    Sink.capacityLeft sink = .limited (left + 1) →
      Sink.capacityLeft (Sink.add sink event) = .limited left

/-- `Vec<Event>`. -/
instance : Sink (List Event) where
  capacityLeft _ := .growable
  add sink event := sink ++ [event]
  extend sink events := sink ++ events

instance : LawfulSink (List Event) where
  extend_eq_foldl sink events := by
    induction events generalizing sink with
    | nil => exact List.append_nil sink
    | cons event events ih =>
        rw [List.foldl_cons, ← ih]
        simp [Sink.extend, Sink.add]
  capacityLeft_add_of_growable _ _ _ := rfl
  capacityLeft_add_of_limited _ _ _ h := by cases h

structure Bounded where
  left : Nat
  events : List Event
deriving DecidableEq

instance : Sink Bounded where
  capacityLeft sink := .limited sink.left
  add sink event := ⟨sink.left - 1, sink.events ++ [event]⟩

@[simp]
theorem Bounded.events_extend (sink : Bounded) (events : List Event) :
    (Sink.extend sink events).events = sink.events ++ events := by
  change (events.foldl Sink.add sink).events = _
  induction events generalizing sink with
  | nil => simp
  | cons event events ih =>
      rw [List.foldl_cons, ih]
      simp [Sink.add]

instance : LawfulSink Bounded where
  extend_eq_foldl _ _ := rfl
  capacityLeft_add_of_growable _ _ h := by cases h
  capacityLeft_add_of_limited sink event left h := by
    have hleft : sink.left = left + 1 := Capacity.limited.inj h
    simp [Sink.capacityLeft, Sink.add, hleft]

section LawfulSink

variable {ES : Type} [Sink ES] [LawfulSink ES]

theorem extend_nil (sink : ES) : Sink.extend sink [] = sink := by
  rw [LawfulSink.extend_eq_foldl, List.foldl_nil]

theorem extend_cons (sink : ES) (event : Event) (events : List Event) :
    Sink.extend sink (event :: events) = Sink.extend (Sink.add sink event) events := by
  rw [LawfulSink.extend_eq_foldl, LawfulSink.extend_eq_foldl, List.foldl_cons]

theorem extend_append (sink : ES) (first second : List Event) :
    Sink.extend sink (first ++ second) = Sink.extend (Sink.extend sink first) second := by
  simp only [LawfulSink.extend_eq_foldl, List.foldl_append]

/-- A sink that is handed no more than it has room for counts what it is handed. -/
theorem capacityLeft_extend_take (sink : ES) (events : List Event) :
    Sink.capacityLeft (Sink.extend sink ((Sink.capacityLeft sink).take events))
      = (Sink.capacityLeft sink).sub events.length := by
  induction events generalizing sink with
  | nil =>
      rw [Capacity.take_nil, extend_nil]
      cases Sink.capacityLeft sink <;> rfl
  | cons event events ih =>
      cases hleft : Sink.capacityLeft sink with
      | growable =>
          have hadd := LawfulSink.capacityLeft_add_of_growable sink event hleft
          have := ih (Sink.add sink event)
          rw [hadd] at this
          rwa [Capacity.take, extend_cons]
      | limited left =>
          cases left with
          | zero =>
            rw [Capacity.take, List.take_zero, extend_nil, hleft, Capacity.sub, Nat.zero_sub]
          | succ left =>
              have hadd := LawfulSink.capacityLeft_add_of_limited sink event left hleft
              have := ih (Sink.add sink event)
              rw [hadd] at this
              rw [Capacity.take, List.take_succ_cons, extend_cons, ← Capacity.take, this]
              simp [Capacity.sub]

end LawfulSink

/-! ## Sources -/

structure Polled (S ES E W : Type) where
  source : S
  sink : ES
  world : W
  result : Except E Unit

def Polled.map {S T ES E W : Type} (f : S → T) (polled : Polled S ES E W) : Polled T ES E W :=
  ⟨f polled.source, polled.sink, polled.world, polled.result⟩

/-- An event source. What it cannot compute itself, such as the time, it reads off the world. -/
class Source (S ES E W : Type) where
  maxTimeout : S → W → Option Duration × W
  poll : S → ES → W → Polled S ES E W
  blockingPoll : S → ES → Option Duration → W → Polled S ES E W :=
    fun source sink _ world => poll source sink world

/-- A list of sources of two types is a list of their sum: a call goes to the source's own type, as
it does through `dyn Source`. -/
instance {S T ES E W : Type} [Source S ES E W] [Source T ES E W] : Source (S ⊕ T) ES E W where
  maxTimeout
    | .inl source, world => Source.maxTimeout ES E source world
    | .inr source, world => Source.maxTimeout ES E source world
  poll
    | .inl source, sink, world => (Source.poll source sink world).map .inl
    | .inr source, sink, world => (Source.poll source sink world).map .inr
  blockingPoll
    | .inl source, sink, timeout, world => (Source.blockingPoll source sink timeout world).map .inl
    | .inr source, sink, timeout, world => (Source.blockingPoll source sink timeout world).map .inr

end Gaea
