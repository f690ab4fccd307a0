import Gaea.Library.Run
import Gaea.Proof.TimersTimeout
import Mathlib.Algebra.BigOperators.Group.List.Basic
import Mathlib.Algebra.Order.Sub.Basic
import Mathlib.Data.Multiset.OrderedMonoid
import Mathlib.Tactic.Abel

/-!
# Exactly-once delivery

A program owns a `Queue` and a `Timers`. It adds to them, removes from them, and passes both to
`poll` in a list that may hold any other sources, with any sink, timeout and clock. Whatever it
does, nothing that was added is lost, delivered twice or delivered early.
-/

namespace Gaea.ExactlyOnce

open Transition

structure System where
  queue : Queue
  timers : Timers
deriving DecidableEq

/-- What one step did. A poll records the calls it made to the queue and to the timers. -/
inductive Label where
  | add (event : Event)
  | addDeadline (deadline : Deadline)
  | removeDeadline (id : Id) (before after : Timers)
  | poll (queueCalls : List (Call Queue)) (timersCalls : List (Call Timers))

inductive Step : System → Label → System → Prop where
  | add (s : System) (event : Event) :
      Step s (.add event) { s with queue := s.queue.add event }
  | addDeadline (s : System) (id : Id) (deadline : Instant) :
      Step s (.addDeadline ⟨deadline, id⟩) { s with timers := s.timers.addDeadline id deadline }
  | removeDeadline (s : System) (id : Id) :
      Step s (.removeDeadline id s.timers (s.timers.removeDeadline id))
        { s with timers := s.timers.removeDeadline id }
  /-- The queue and the timers are polled at the places `i` and `j` of a list of sources. -/
  | poll {S ES E W : Type} [Sink ES] [Clock W] [Source S ES E W] (s : System)
      (sources : List (Observed Queue ⊕ Observed Timers ⊕ S)) (sink : ES)
      (timeout : Option Duration) (world : W) (i j : Nat)
      (queue : Observed Queue) (timers : Observed Timers)
      (hqueue : sources[i]? = some (.inl ⟨s.queue, []⟩))
      (htimers : sources[j]? = some (.inr (.inl ⟨s.timers, []⟩)))
      (hqueue' : (Gaea.poll sources sink timeout world : Polled _ ES E W).source[i]?
        = some (.inl queue))
      (htimers' : (Gaea.poll sources sink timeout world : Polled _ ES E W).source[j]?
        = some (.inr (.inl timers))) :
      Step s (.poll queue.calls timers.calls) ⟨queue.source, timers.source⟩

/-! ## What a run has done -/

def Label.added : Label → List Event
  | .add event => [event]
  | _ => []

def Label.handed : Label → List Event
  | .poll queueCalls _ => queueCalls.flatMap Call.handed
  | _ => []

def Label.addedDeadlines : Label → Multiset Deadline
  | .addDeadline deadline => {deadline}
  | _ => 0

def taken (call : Call Timers) : Multiset Deadline := call.before.pending - call.after.pending

def Label.deliveredDeadlines : Label → Multiset Deadline
  | .poll _ timersCalls => (timersCalls.map taken).sum
  | _ => 0

def Label.removedDeadlines : Label → Multiset Deadline
  | .removeDeadline _ before after => before.pending - after.pending
  | _ => 0

/-- One deadline with the given id is gone if there was one, and nothing else has changed. -/
def RemovesOne (id : Id) (before after : Timers) : Prop :=
  (∃ d ∈ before.pending, d.id = id ∧ before.pending = d ::ₘ after.pending)
    ∨ (∀ d ∈ before.pending, d.id ≠ id) ∧ after = before

/-- The events of a call are those of the deadlines it took off the timers, and these have expired
at the time it read. -/
def Delivers (call : Call Timers) : Prop :=
  ∃ deadlines : List Deadline, (deadlines : Multiset Deadline) = taken call
    ∧ call.before.pending = deadlines + call.after.pending
    ∧ call.handed = deadlines.map Deadline.toEvent
    ∧ ∀ d ∈ deadlines, d.deadline ≤ call.now

/-! ## One call -/

section Call

variable {S ES E W : Type} [Sink ES] [Clock W] [Source S ES E W]

omit [Sink ES] in
theorem Delivers.pending_eq {call : Call Timers} (h : Delivers call) :
    call.before.pending = taken call + call.after.pending := by
  obtain ⟨deadlines, htaken, hpending, -⟩ := h
  rw [← htaken]
  exact hpending

theorem delivers_poll (timers : Timers) (sink : ES) (now : Instant) :
    Delivers ⟨timers, (timers.poll now (⟨sink, []⟩ : Tap ES)).1,
      (timers.poll now (⟨sink, []⟩ : Tap ES)).2.log, now⟩ := by
  have hpending := timers.pending_poll now (⟨sink, []⟩ : Tap ES)
  refine ⟨timers.delivered now (⟨sink, []⟩ : Tap ES), ?_, hpending, ?_, ?_⟩
  · rw [taken, hpending, Multiset.add_sub_cancel_right]
  · exact timers.handed_eq now sink
  · intro d hd
    have hready : d ∈ timers.ready now := by
      unfold Timers.delivered Capacity.take at hd
      split at hd
      · exact List.mem_of_mem_take hd
      · exact hd
    exact (Timers.mem_ready.mp hready).2

/-- What any poll does to an observed source: the calls it adds to the record account for the
change of the source. -/
def Accounted : Observed Queue ⊕ Observed Timers ⊕ S → Observed Queue ⊕ Observed Timers ⊕ S → Prop
  | .inl before, .inl after =>
      ∃ calls, after.calls = before.calls ++ calls
        ∧ calls.flatMap Call.handed ++ after.source.events = before.source.events
  | .inr (.inl before), .inr (.inl after) =>
      ∃ calls, after.calls = before.calls ++ calls
        ∧ before.source.pending = (calls.map taken).sum + after.source.pending
        ∧ ∀ call ∈ calls, Delivers call
  | .inr (.inr _), .inr (.inr _) => True
  | _, _ => False

omit [Sink ES] [Clock W] [Source S ES E W] in
theorem accounted_refl (source : Observed Queue ⊕ Observed Timers ⊕ S) :
    Accounted source source := by
  rcases source with queue | timers | other
  · exact ⟨[], by simp, by simp⟩
  · exact ⟨[], by simp, by simp, by simp⟩
  · trivial

theorem accounted_poll (source : Observed Queue ⊕ Observed Timers ⊕ S) (sink : ES) (world : W) :
    Accounted source (Source.poll source sink world : Polled _ ES E W).source := by
  rcases source with queue | timers | other
  · refine ⟨_, rfl, ?_⟩
    simp only [List.flatMap_cons, List.flatMap_nil, List.append_nil]
    exact List.take_append_drop _ _
  · have hdelivers := delivers_poll timers.source sink (Clock.now world).1
    refine ⟨_, rfl, ?_, ?_⟩
    · rw [List.map_cons, List.map_nil, List.sum_cons, List.sum_nil, add_zero]
      exact hdelivers.pending_eq
    · intro call hcall
      rw [List.mem_singleton.mp hcall]
      exact hdelivers
  · trivial

theorem pollRelation_accounted :
    PollRelation ES E W (Accounted : Observed Queue ⊕ Observed Timers ⊕ S → _ → Prop) where
  refl := accounted_refl
  poll := accounted_poll
  blockingPoll source sink timeout world := by
    rcases source with queue | timers | other
    · exact accounted_poll (.inl queue) sink world
    · exact accounted_poll (.inr (.inl timers)) sink world
    · trivial

end Call

/-! ## Runs -/

theorem removesOne_removeDeadline (timers : Timers) (id : Id) :
    RemovesOne id timers (timers.removeDeadline id) := by
  by_cases hmem : ∃ d ∈ timers.pending, d.id = id
  · obtain ⟨d, hid, hpending⟩ := Timers.pending_removeDeadline_of_mem hmem
    refine Or.inl ⟨d, ?_, hid, hpending⟩
    rw [hpending]
    exact Multiset.mem_cons_self d _
  · have hnone : ∀ d ∈ timers.pending, d.id ≠ id := fun d hd hid => hmem ⟨d, hd, hid⟩
    exact Or.inr ⟨hnone, Timers.removeDeadline_of_notMem hnone⟩

theorem RemovesOne.pending_eq {id : Id} {before after : Timers} (h : RemovesOne id before after) :
    before.pending = (before.pending - after.pending) + after.pending := by
  rcases h with ⟨d, -, -, hpending⟩ | ⟨-, rfl⟩
  · rw [hpending, ← Multiset.singleton_add, Multiset.add_sub_cancel_right]
  · rw [tsub_self, zero_add]

/-- The history of a run accounts for all that the queue and the timers hold. -/
structure Balanced (labels : List Label) (s : System) : Prop where
  events : labels.flatMap Label.handed ++ s.queue.events = labels.flatMap Label.added
  deadlines : (labels.map Label.addedDeadlines).sum
    = (labels.map Label.deliveredDeadlines).sum + (labels.map Label.removedDeadlines).sum
      + s.timers.pending

/-- What one step adds to the history is what it changes. -/
structure Balances (s : System) (label : Label) (t : System) : Prop where
  events : label.handed ++ t.queue.events = s.queue.events ++ label.added
  deadlines : s.timers.pending + label.addedDeadlines
    = label.deliveredDeadlines + label.removedDeadlines + t.timers.pending

theorem Step.balances {s t : System} {label : Label} (step : Step s label t) :
    Balances s label t := by
  cases step with
  | add _ event =>
      refine ⟨rfl, ?_⟩
      simp [Label.addedDeadlines, Label.deliveredDeadlines, Label.removedDeadlines]
  | addDeadline _ id deadline =>
      refine ⟨by simp [Label.handed, Label.added], ?_⟩
      rw [Timers.pending_addDeadline, ← Multiset.singleton_add, add_comm]
      simp [Label.addedDeadlines, Label.deliveredDeadlines, Label.removedDeadlines]
  | removeDeadline _ id =>
      refine ⟨by simp [Label.handed, Label.added], ?_⟩
      have hpending := (removesOne_removeDeadline s.timers id).pending_eq
      simpa [Label.addedDeadlines, Label.deliveredDeadlines, Label.removedDeadlines] using hpending
  | @poll _ _ E _ _ _ _ _ sources sink timeout world i j _ _ hqueue htimers hqueue' htimers' =>
      have hrel := pollRelation_accounted.forall₂_poll (E := E) sources sink timeout world
      obtain ⟨queueCalls, hcalls, hevents⟩ := getElem?_of_forall₂ hrel hqueue hqueue'
      obtain ⟨timersCalls, hcalls', hpending, -⟩ := getElem?_of_forall₂ hrel htimers htimers'
      rw [List.nil_append] at hcalls hcalls'
      constructor
      · simp only [Label.handed, Label.added, List.append_nil, hcalls, hevents]
      · simp only [Label.addedDeadlines, Label.deliveredDeadlines, Label.removedDeadlines,
          add_zero, hcalls', hpending]

theorem Step.delivers {s t : System} {queueCalls : List (Call Queue)}
    {timersCalls : List (Call Timers)} (step : Step s (.poll queueCalls timersCalls) t) :
    ∀ call ∈ timersCalls, Delivers call := by
  cases step with
  | @poll _ _ E _ _ _ _ _ sources sink timeout world _ _ _ _ _ htimers _ htimers' =>
      have hrel := pollRelation_accounted.forall₂_poll (E := E) sources sink timeout world
      obtain ⟨timersCalls, hcalls, -, hdelivers⟩ := getElem?_of_forall₂ hrel htimers htimers'
      rw [List.nil_append] at hcalls
      rwa [hcalls]

theorem Balanced.snoc {labels : List Label} {s t : System} {label : Label}
    (h : Balanced labels s) (hstep : Balances s label t) : Balanced (labels ++ [label]) t := by
  constructor
  · calc (labels ++ [label]).flatMap Label.handed ++ t.queue.events
        = labels.flatMap Label.handed ++ (label.handed ++ t.queue.events) := by
          rw [List.flatMap_append, List.flatMap_singleton, List.append_assoc]
      _ = labels.flatMap Label.handed ++ (s.queue.events ++ label.added) := by rw [hstep.events]
      _ = labels.flatMap Label.added ++ label.added := by rw [← List.append_assoc, h.events]
      _ = (labels ++ [label]).flatMap Label.added := by
          rw [List.flatMap_append, List.flatMap_singleton]
  · have hsum (f : Label → Multiset Deadline) :
        ((labels ++ [label]).map f).sum = (labels.map f).sum + f label := by simp
    rw [hsum, hsum, hsum, h.deadlines, add_assoc, hstep.deadlines]
    abel

theorem balanced_of_run {labels : List Label} {s : System}
    (run : Run Step ⟨Queue.new, Timers.new⟩ labels s) : Balanced labels s := by
  apply run.invariant (I := Balanced) ⟨rfl, rfl⟩
  intro labels s label t hbalanced step
  exact hbalanced.snoc step.balances

/-- **Exactly-once delivery.** At every point of a run, the events handed over by the queue followed
by those it holds are the events added to it, in order. The deadlines added to the timers are those
delivered, those removed and those pending, counted with multiplicity. A removal takes exactly one
deadline with the given id, if there is one. A delivered deadline has expired when it is delivered,
and is delivered as one event. -/
theorem exactly_once {labels : List Label} {s : System}
    (run : Run Step ⟨Queue.new, Timers.new⟩ labels s) :
    labels.flatMap Label.handed ++ s.queue.events = labels.flatMap Label.added
      ∧ (labels.map Label.addedDeadlines).sum
        = (labels.map Label.deliveredDeadlines).sum + (labels.map Label.removedDeadlines).sum
          + s.timers.pending
      ∧ (∀ id before after, Label.removeDeadline id before after ∈ labels →
        RemovesOne id before after)
      ∧ ∀ queueCalls timersCalls, Label.poll queueCalls timersCalls ∈ labels →
        ∀ call ∈ timersCalls, Delivers call := by
  obtain ⟨hevents, hdeadlines⟩ := balanced_of_run run
  refine ⟨hevents, hdeadlines, ?_, ?_⟩
  · intro id before after hmem
    obtain ⟨s, t, step⟩ := run.exists_step hmem
    cases step with
    | removeDeadline _ id => exact removesOne_removeDeadline s.timers id
  · intro queueCalls timersCalls hmem
    obtain ⟨s, t, step⟩ := run.exists_step hmem
    exact step.delivers

/-- Two deadlines share an id, one of them is removed, and a poll with two places takes the queue's
event and the deadline that is left. -/
theorem exactly_once_two_places :
    let event : Event := ⟨⟨7⟩, Ready.readable⟩
    let queue := Queue.new.add event
    let timers := (Timers.new.addDeadline ⟨1⟩ ⟨9, by decide⟩).addDeadline ⟨1⟩ ⟨3, by decide⟩
    let removed := timers.removeDeadline ⟨1⟩
    let labels : List Label :=
      [.add event, .addDeadline ⟨⟨9, by decide⟩, ⟨1⟩⟩, .addDeadline ⟨⟨3, by decide⟩, ⟨1⟩⟩,
        .removeDeadline ⟨1⟩ timers removed,
        .poll [⟨queue, Queue.new, [event], ⟨9, by decide⟩⟩]
          [⟨removed, Timers.new, [⟨⟨1⟩, Ready.timer⟩], ⟨9, by decide⟩⟩]]
    labels.flatMap Label.handed = labels.flatMap Label.added
      ∧ (labels.map Label.addedDeadlines).sum
        = (labels.map Label.deliveredDeadlines).sum + (labels.map Label.removedDeadlines).sum := by
  intro event queue timers removed labels
  have hadd : Run Step ⟨Queue.new, Timers.new⟩ _ _ := Run.snoc .nil (.add _ event)
  have hfirst := hadd.snoc (.addDeadline _ ⟨1⟩ ⟨9, by decide⟩)
  have hsecond := hfirst.snoc (.addDeadline _ ⟨1⟩ ⟨3, by decide⟩)
  have hremove := hsecond.snoc (.removeDeadline _ ⟨1⟩)
  have hpoll : Step ⟨queue, removed⟩ _ ⟨Queue.new, Timers.new⟩ :=
    Step.poll (S := Queue) (E := Unit) ⟨queue, removed⟩
      [.inl ⟨queue, []⟩, .inr (.inr Queue.new), .inr (.inl ⟨removed, []⟩)]
      (⟨2, []⟩ : Bounded) none (⟨⟨9, by decide⟩⟩ : FixedClock) 0 2
      ⟨Queue.new, [⟨queue, Queue.new, [event], ⟨9, by decide⟩⟩]⟩
      ⟨Timers.new, [⟨removed, Timers.new, [⟨⟨1⟩, Ready.timer⟩], ⟨9, by decide⟩⟩]⟩
      rfl rfl (by decide +kernel) (by decide +kernel)
  have hrun : Run Step ⟨Queue.new, Timers.new⟩ labels ⟨Queue.new, Timers.new⟩ := hremove.snoc hpoll
  obtain ⟨hevents, hdeadlines, -⟩ := exactly_once hrun
  exact ⟨hevents, by simpa only [Timers.pending_new, add_zero] using hdeadlines⟩

end Gaea.ExactlyOnce
