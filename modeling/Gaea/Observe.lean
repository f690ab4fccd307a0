import Gaea.Poll
import Gaea.Timers
import Gaea.UserSpace

/-!
# Observing what a source hands to its sink

Several sources share one sink, so the sink alone does not tell which of them an event came from.
An observed source keeps a record of the calls made to it, and each record holds the events that the
source handed over in that call. Observing a source changes nothing about what `poll` does.
-/

namespace Gaea

structure Tap (ES : Type) where
  sink : ES
  log : List Event
deriving DecidableEq

instance {ES : Type} [Sink ES] : Sink (Tap ES) where
  capacityLeft tap := Sink.capacityLeft tap.sink
  add tap event := ⟨Sink.add tap.sink event, tap.log ++ [event]⟩
  extend tap events := ⟨Sink.extend tap.sink events, tap.log ++ events⟩

theorem Tap.log_foldl_add {ES : Type} [Sink ES] (tap : Tap ES) (events : List Event) :
    (events.foldl Sink.add tap).log = tap.log ++ events := by
  induction events generalizing tap with
  | nil => rw [List.foldl_nil, List.append_nil]
  | cons event events ih =>
      rw [List.foldl_cons, ih]
      exact List.append_assoc tap.log [event] events

instance {ES : Type} [Sink ES] [LawfulSink ES] : LawfulSink (Tap ES) where
  extend_eq_foldl tap events := by
    induction events generalizing tap with
    | nil => exact congrArg₂ Tap.mk (extend_nil tap.sink) (List.append_nil tap.log)
    | cons event events ih =>
        rw [List.foldl_cons, ← ih]
        exact congrArg₂ Tap.mk (extend_cons tap.sink event events)
          (List.append_cons tap.log event events)
  capacityLeft_add_of_growable tap := LawfulSink.capacityLeft_add_of_growable tap.sink
  capacityLeft_add_of_limited tap := LawfulSink.capacityLeft_add_of_limited tap.sink

def Event.isOf (id : Id) (event : Event) : Bool := event.id = id

/-- A call of `poll` or `blocking_poll` to a source, with the time at which it was made. -/
structure Call (S : Type) where
  before : S
  after : S
  handed : List Event
  now : Instant
deriving DecidableEq

structure Observed (S : Type) where
  source : S
  calls : List (Call S)
deriving DecidableEq

namespace Observed

variable {S ES E W : Type}

def record (observed : Observed S) (now : Instant) (polled : Polled S (Tap ES) E W) :
    Polled (Observed S) ES E W where
  source :=
    ⟨polled.source,
      observed.calls ++ [⟨observed.source, polled.source, polled.sink.log, now⟩]⟩
  sink := polled.sink.sink
  world := polled.world
  result := polled.result

instance [Clock W] [Source S (Tap ES) E W] : Source (Observed S) ES E W where
  maxTimeout observed world := Source.maxTimeout (Tap ES) E observed.source world
  poll observed sink world :=
    observed.record (Clock.now world).1 (Source.poll observed.source ⟨sink, []⟩ world)
  blockingPoll observed sink timeout world :=
    observed.record (Clock.now world).1
      (Source.blockingPoll observed.source ⟨sink, []⟩ timeout world)

end Observed

/-! ## Observation is transparent -/

section Transparent

variable {ES E W : Type} [Sink ES]

theorem Timers.pollLoop_tap (now : Instant) (rounds : Nat) (timers : Timers) (tap : Tap ES) :
    (pollLoop now rounds timers tap).1 = (pollLoop now rounds timers tap.sink).1
      ∧ (pollLoop now rounds timers tap).2.sink = (pollLoop now rounds timers tap.sink).2 := by
  induction rounds generalizing timers tap with
  | zero => exact ⟨rfl, rfl⟩
  | succ rounds ih =>
      rw [pollLoop, pollLoop]
      cases timers.peek with
      | none => exact ⟨rfl, rfl⟩
      | some deadline =>
          by_cases hexpired : deadline.deadline ≤ now
          · simp only [hexpired, if_true]
            cases timers.pop with
            | none => exact ⟨rfl, rfl⟩
            | some popped => exact ih popped.2 (Sink.add tap popped.1.toEvent)
          · simp only [hexpired, if_false, and_self]

variable [Clock W]

theorem Observed.pollMap_queue :
    PollMap ES E W (Observed.source : Observed Queue → Queue) where
  maxTimeout _ _ := rfl
  poll _ _ _ := rfl
  blockingPoll _ _ _ _ := rfl

theorem Observed.pollMap_timers :
    PollMap ES E W (Observed.source : Observed Timers → Timers) := by
  have hpoll (observed : Observed Timers) (sink : ES) (world : W) :
      (Source.poll observed.source sink world : Polled Timers ES E W)
        = (Source.poll observed sink world : Polled (Observed Timers) ES E W).map source := by
    obtain ⟨hsource, hsink⟩ := Timers.pollLoop_tap (Clock.now world).1
      ((Sink.capacityLeft sink).min observed.source.deadlines.len) observed.source ⟨sink, []⟩
    exact congrArg₂ (fun source sink => (⟨source, sink, _, _⟩ : Polled Timers ES E W))
      hsource.symm hsink.symm
  exact ⟨fun _ _ => rfl, hpoll, fun observed sink _ world => hpoll observed sink world⟩

def unobserved {S : Type} : Observed Queue ⊕ Observed Timers ⊕ S → Queue ⊕ Timers ⊕ S :=
  Sum.map Observed.source (Sum.map Observed.source id)

/-- **Observation is transparent.** A poll of observed sources is the poll of the sources
themselves. -/
theorem poll_unobserved {S : Type} [Source S ES E W]
    (sources : List (Observed Queue ⊕ Observed Timers ⊕ S)) (sink : ES)
    (timeout : Option Duration) (world : W) :
    (poll (sources.map unobserved) sink timeout world : Polled _ ES E W)
      = (poll sources sink timeout world : Polled _ ES E W).map (List.map unobserved) :=
  (Observed.pollMap_queue.sum_map (Observed.pollMap_timers.sum_map PollMap.refl)).poll_map
    sources sink timeout world

end Transparent

end Gaea
