import Gaea.Library.Fifo
import Gaea.Observe
import Gaea.Sys.ReadyList

/-!
# No event of the operating system is dropped

The room that a poll asks the kernel to fill is the least of the sink's capacity and the length of
its array, so whatever the kernel takes off its list is handed to the sink. Over a run the selector
is a queue: the events come out translated, in order, and each of them once.
-/

namespace Gaea.Sys

open Transition

variable {Entry Selector : Type} [SystemSelector Selector (ReadyList Entry)]

/-- A poll, with a record of the events it hands over. -/
def tapped {ES : Type} [Sink ES] (selector : Selector) (sink : ES) (timeout : Option Duration)
    (kernel : ReadyList Entry) : Polled (OsQueue Selector) (Tap ES) IoError (ReadyList Entry) :=
  (OsQueue.mk selector).blockingPoll ⟨sink, []⟩ timeout kernel

/-- The kernel had the array for what it wrote, and every slot that is read has been written. -/
def WaitCall.Covered (call : WaitCall Entry) : Prop :=
  call.room ≤ eventsCap ∧ call.written.length ≤ call.room
    ∧ ∀ slot ∈ readSlots call.written call.ret, ∃ entry ∈ call.written, slot = some entry

/-- What a poll does: entries go from the front of the kernel's list to the sink, no more than it
has room for, and none when there is no room or an error. -/
structure Delivers (translate : Entry → Event) (capacity : Capacity)
    (before after : ReadyList Entry) (handed : List Event) (result : Except IoError Unit) :
    Prop where
  moved : ∃ entries, before.ready = entries ++ after.ready ∧ handed = entries.map translate
  length_le : handed.length ≤ capacity.min eventsCap
  failed : result ≠ .ok () → handed = [] ∧ after.ready = before.ready
  no_room : capacity = .limited 0 → handed = [] ∧ after.ready = before.ready
  covered : ∀ call ∈ after.calls, call ∈ before.calls ∨ call.Covered

/-! ## One poll -/

namespace ReadyList

variable {ES : Type} [Sink ES] {ofSlot : Option Entry → Event}

/-- What either selector makes of the answer to its system call. -/
def finish (ofSlot : Option Entry → Event) (sink : ES)
    (answer : Int32 × List Entry × Int32 × ReadyList Entry) :
    ES × ReadyList Entry × Except IoError Unit :=
  if answer.1 = -1 then (sink, answer.2.2.2, .error ⟨answer.2.2.1⟩)
  else if answer.1 = 0 then (sink, answer.2.2.2, .ok ())
  else
    (Sink.extend sink ((readSlots answer.2.1 answer.1).map ofSlot), answer.2.2.2, .ok ())

theorem finish_of_error {kernel : ReadyList Entry} {errno : Int32}
    (hanswer : kernel.answer = .error errno) (sink : ES) (room : Nat) :
    finish ofSlot sink (kernel.wait room)
      = (sink, { kernel with calls := kernel.calls ++ [⟨room, -1, []⟩] }, .error ⟨errno⟩) := by
  rw [wait, hanswer]
  rfl

theorem length_front_le (kernel : ReadyList Entry) (room count : Nat) :
    (kernel.front room count).length ≤ room := by
  rw [front, List.length_take]
  omega

theorem finish_of_ok {kernel : ReadyList Entry} {count : Nat} (hanswer : kernel.answer = .ok count)
    (tap : Tap ES) {room : Nat} (hroom : room ≤ eventsCap) :
    (finish ofSlot tap (kernel.wait room)).1.log
        = tap.log ++ (kernel.front room count).map (fun entry => ofSlot (some entry))
      ∧ (finish ofSlot tap (kernel.wait room)).2 = ((kernel.wait room).2.2.2, .ok ()) := by
  have hlength := (kernel.length_front_le room count).trans hroom
  rw [wait, hanswer, finish, take_written hlength _ _ fun slots =>
    (Sink.extend tap (slots.map ofSlot), _, _), List.map_map]
  by_cases hnone : kernel.front room count = []
  · simp [hnone]
  · rw [if_neg hnone]
    exact ⟨rfl, rfl⟩

theorem delivers_finish (ofSlot : Option Entry → Event) (kernel : ReadyList Entry) (sink : ES) :
    let answer := kernel.wait ((Sink.capacityLeft sink).min eventsCap)
    let finished := finish ofSlot (⟨sink, []⟩ : Tap ES) answer
    Delivers (fun entry => ofSlot (some entry)) (Sink.capacityLeft sink) kernel finished.2.1
      finished.1.log finished.2.2 := by
  intro answer finished
  have hroom := (Sink.capacityLeft sink).min_le eventsCap
  cases hanswer : kernel.answer with
  | error errno =>
      have hfinished : finished = _ := finish_of_error hanswer _ _
      rw [hfinished]
      refine ⟨⟨[], rfl, rfl⟩, Nat.zero_le _, fun _ => ⟨rfl, rfl⟩, fun _ => ⟨rfl, rfl⟩, ?_⟩
      intro call hcall
      refine (List.mem_append.mp hcall).imp_right fun hlast => ?_
      rw [List.mem_singleton.mp hlast]
      -- nothing has been written, and nothing is read
      exact ⟨hroom, Nat.zero_le _, nofun⟩
  | ok count =>
      obtain ⟨hlog, hafter⟩ : finished.1.log = _ ∧ finished.2 = _ :=
        finish_of_ok hanswer (⟨sink, []⟩ : Tap ES) hroom
      have hfront := kernel.length_front_le ((Sink.capacityLeft sink).min eventsCap) count
      rw [hlog, hafter, wait, hanswer]
      refine ⟨⟨_, (List.take_append_drop _ _).symm, rfl⟩, by simpa using hfront, ?_, ?_, ?_⟩
      · intro hfailed
        exact absurd rfl hfailed
      · intro hfull
        simp [hfull, Capacity.min, front]
      · intro call hcall
        refine (List.mem_append.mp hcall).imp_right fun hlast => ?_
        rw [List.mem_singleton.mp hlast]
        refine ⟨hroom, hfront, fun slot hslot => ?_⟩
        rw [readSlots_eq (hfront.trans hroom)] at hslot
        obtain ⟨entry, hentry, rfl⟩ := List.mem_map.mp hslot
        exact ⟨entry, hentry, rfl⟩

end ReadyList

/-! ## The two selectors -/

/-- A selector none of whose polls loses an entry. -/
class LosesNothing (Selector : Type) {Entry : Type} [SystemSelector Selector (ReadyList Entry)]
    (translate : outParam (Entry → Event)) : Prop where
  delivers {ES : Type} [Sink ES] (selector : Selector) (sink : ES) (timeout : Option Duration)
    (kernel : ReadyList Entry) :
    Delivers translate (Sink.capacityLeft sink) kernel (tapped selector sink timeout kernel).world
      (tapped selector sink timeout kernel).sink.log (tapped selector sink timeout kernel).result

section Selectors

variable {ES : Type} [Sink ES]

/-- The error of a poll is that of the selector. -/
theorem tapped_eq (selector : Selector) (sink : ES) (timeout : Option Duration)
    (kernel : ReadyList Entry) :
    tapped selector sink timeout kernel
      = let selected := SystemSelector.select selector (⟨sink, []⟩ : Tap ES) timeout kernel
        ⟨⟨selector⟩, selected.1, selected.2.1, selected.2.2⟩ := by
  have hresult (result : Except IoError Unit) :
      result.mapError FromIoError.fromIoError = result := by
    cases result <;> rfl
  rw [tapped, OsQueue.blockingPoll, hresult]

theorem Epoll.select_eq_finish (selector : Epoll.Selector) (sink : ES)
    (timeout : Option Duration) (kernel : ReadyList EpollEvent)
    (hroom : Sink.capacityLeft sink ≠ .limited 0) :
    selector.select sink timeout kernel
      = ReadyList.finish slotToEvent sink
        (kernel.wait ((Sink.capacityLeft sink).min eventsCap)) := by
  have hclamp : (Int32.ofNat ((Sink.capacityLeft sink).min eventsCap)).toNatClampNeg
      = (Sink.capacityLeft sink).min eventsCap := by
    apply Int32.toNatClampNeg_ofNat_of_lt
    exact ((Sink.capacityLeft sink).min_le eventsCap).trans_lt (by decide)
  have hwait (maxevents timeoutMs : Int32) :
      Kernel.epollWait selector.epfd maxevents timeoutMs kernel
        = let answer := kernel.wait maxevents.toNatClampNeg
          (⟨answer.1, answer.2.1, answer.2.2.1⟩, answer.2.2.2) := rfl
  simp only [Selector.select, if_neg (min_eventsCap_ne_zero hroom), hwait, hclamp]
  rfl

theorem Kqueue.select_eq_finish (selector : Kqueue.Selector) (sink : ES)
    (timeout : Option Duration) (kernel : ReadyList Kevent) :
    selector.select sink timeout kernel
      = ReadyList.finish slotToEvent sink
        (kernel.wait ((Sink.capacityLeft sink).min eventsCap)) := rfl

end Selectors

instance : LosesNothing Epoll.Selector Epoll.epEventToEvent where
  delivers {ES} _ selector sink timeout kernel := by
    rw [tapped_eq]
    by_cases hroom : Sink.capacityLeft sink = .limited 0
    -- no system call is made, so nothing moves
    · have hselect : SystemSelector.select selector (⟨sink, []⟩ : Tap ES) timeout kernel = _ :=
        Epoll.select_of_no_room selector timeout kernel hroom
      rw [hselect]
      exact ⟨⟨[], rfl, rfl⟩, Nat.zero_le _, fun _ => ⟨rfl, rfl⟩, fun _ => ⟨rfl, rfl⟩,
        fun _ hcall => .inl hcall⟩
    · have hselect : SystemSelector.select selector (⟨sink, []⟩ : Tap ES) timeout kernel = _ :=
        Epoll.select_eq_finish selector _ timeout kernel hroom
      rw [hselect]
      exact ReadyList.delivers_finish Epoll.slotToEvent kernel sink

instance : LosesNothing Kqueue.Selector Kqueue.keventToEvent where
  delivers {ES} _ selector sink timeout kernel := by
    have hselect : SystemSelector.select selector (⟨sink, []⟩ : Tap ES) timeout kernel = _ :=
      Kqueue.select_eq_finish selector _ timeout kernel
    rw [tapped_eq, hselect]
    exact ReadyList.delivers_finish Kqueue.slotToEvent kernel sink

/-! ## When a poll fails -/

section Results

variable {ES : Type} [Sink ES]

theorem ReadyList.finish_eq_ok_iff {ofSlot : Option Entry → Event} (kernel : ReadyList Entry)
    (sink : ES) :
    (finish ofSlot (⟨sink, []⟩ : Tap ES)
        (kernel.wait ((Sink.capacityLeft sink).min eventsCap))).2.2 = .ok ()
      ↔ ∃ count, kernel.answer = .ok count := by
  cases hanswer : kernel.answer with
  | error errno =>
      rw [finish_of_error hanswer]
      exact iff_of_false (fun h => by cases h) (fun ⟨_, h⟩ => by cases h)
  | ok count =>
      have hroom := (Sink.capacityLeft sink).min_le eventsCap
      rw [(finish_of_ok hanswer (⟨sink, []⟩ : Tap ES) hroom).2]
      exact iff_of_true rfl ⟨count, rfl⟩

/-- `epoll_wait` is not called when there is no room. -/
theorem Epoll.result_eq_ok_iff (selector : Epoll.Selector) (sink : ES) (timeout : Option Duration)
    (kernel : ReadyList EpollEvent) :
    (tapped selector sink timeout kernel).result = .ok ()
      ↔ Sink.capacityLeft sink = .limited 0 ∨ ∃ count, kernel.answer = .ok count := by
  rw [tapped_eq]
  by_cases hroom : Sink.capacityLeft sink = .limited 0
  · have hselect : SystemSelector.select selector (⟨sink, []⟩ : Tap ES) timeout kernel = _ :=
      select_of_no_room selector timeout kernel hroom
    rw [hselect]
    exact iff_of_true rfl (.inl hroom)
  · have hselect : SystemSelector.select selector (⟨sink, []⟩ : Tap ES) timeout kernel = _ :=
      select_eq_finish selector _ timeout kernel hroom
    rw [hselect, or_iff_right hroom]
    exact ReadyList.finish_eq_ok_iff kernel sink

theorem Kqueue.result_eq_ok_iff (selector : Kqueue.Selector) (sink : ES)
    (timeout : Option Duration) (kernel : ReadyList Kevent) :
    (tapped selector sink timeout kernel).result = .ok () ↔ ∃ count, kernel.answer = .ok count := by
  have hselect : SystemSelector.select selector (⟨sink, []⟩ : Tap ES) timeout kernel = _ :=
    select_eq_finish selector _ timeout kernel
  rw [tapped_eq, hselect]
  exact ReadyList.finish_eq_ok_iff kernel sink

end Results

/-! ## Runs -/

inductive PollLabel (Entry : Type) where
  | arrive (entries : List Entry)
  | poll (handed : List Event)

namespace PollLabel

def toFifo : PollLabel Entry → Fifo.Label Entry Event
  | arrive entries => .put entries
  | poll handed => .take handed

def arrived (label : PollLabel Entry) : List Entry := label.toFifo.arrived

def handed (label : PollLabel Entry) : List Event := label.toFifo.handed

end PollLabel

/-- Entries become ready at any time. Before a poll the kernel decides how it is going to answer. -/
inductive PollStep (selector : Selector) :
    ReadyList Entry → PollLabel Entry → ReadyList Entry → Prop where
  | arrive (kernel : ReadyList Entry) (entries : List Entry) :
      PollStep selector kernel (.arrive entries) (kernel.append entries)
  | poll {ES : Type} [Sink ES] (kernel : ReadyList Entry) (answer : Except Int32 Nat) (sink : ES)
      (timeout : Option Duration) :
      PollStep selector kernel
        (.poll (tapped selector sink timeout { kernel with answer }).sink.log)
        (tapped selector sink timeout { kernel with answer }).world

variable {translate : Entry → Event} [LosesNothing Selector translate] {selector : Selector}

theorem PollStep.fifo {kernel after : ReadyList Entry} {label : PollLabel Entry}
    (step : PollStep selector kernel label after) :
    Fifo.Step translate kernel.ready label.toFifo after.ready := by
  cases step with
  | arrive _ entries => exact Fifo.Step.put kernel.ready entries
  | poll _ answer sink timeout =>
      have hdelivers := LosesNothing.delivers selector sink timeout { kernel with answer }
      generalize tapped selector sink timeout { kernel with answer } = polled at hdelivers
      obtain ⟨entries, hready, hhanded⟩ := hdelivers.moved
      change kernel.ready = _ at hready
      rw [hready, PollLabel.toFifo, hhanded]
      exact Fifo.Step.take entries _

theorem exists_taken {init kernel : ReadyList Entry} {labels : List (PollLabel Entry)}
    (run : Run (PollStep selector) init labels kernel) :
    ∃ taken, init.ready ++ labels.flatMap PollLabel.arrived = taken ++ kernel.ready
      ∧ labels.flatMap PollLabel.handed = taken.map translate := by
  have hstep : ∀ before label after, PollStep selector before label after →
      Fifo.Step translate before.ready label.toFifo after.ready := fun _ _ _ => PollStep.fifo
  have hfifo := Fifo.conserved (run.map ReadyList.ready PollLabel.toFifo hstep)
  rwa [List.flatMap_map, List.flatMap_map] at hfifo

/-- **No event of the operating system is dropped.** On both backends what all the polls of a run
hand over is a translated prefix of the entries that were ever ready, and the others are still in
the kernel. A poll delivers as `Delivers` says; it succeeds when its system call does, and on epoll
also when the sink has no room. -/
theorem no_event_dropped (epoll : Epoll.Selector) (kqueue : Kqueue.Selector) :
    (∀ init labels kernel, Run (PollStep epoll) init labels kernel →
      ∃ taken, init.ready ++ labels.flatMap PollLabel.arrived = taken ++ kernel.ready
        ∧ labels.flatMap PollLabel.handed = taken.map Epoll.epEventToEvent)
    ∧ (∀ init labels kernel, Run (PollStep kqueue) init labels kernel →
      ∃ taken, init.ready ++ labels.flatMap PollLabel.arrived = taken ++ kernel.ready
        ∧ labels.flatMap PollLabel.handed = taken.map Kqueue.keventToEvent)
    ∧ ∀ (ES : Type) [Sink ES] (sink : ES) (timeout : Option Duration),
      (∀ kernel, let polled := tapped epoll sink timeout kernel
        Delivers Epoll.epEventToEvent (Sink.capacityLeft sink) kernel polled.world polled.sink.log
            polled.result
          ∧ (polled.result = .ok ()
            ↔ Sink.capacityLeft sink = .limited 0 ∨ ∃ count, kernel.answer = .ok count))
      ∧ ∀ kernel, let polled := tapped kqueue sink timeout kernel
        Delivers Kqueue.keventToEvent (Sink.capacityLeft sink) kernel polled.world polled.sink.log
            polled.result
          ∧ (polled.result = .ok () ↔ ∃ count, kernel.answer = .ok count) := by
  refine ⟨fun _ _ _ run => exists_taken run, fun _ _ _ run => exists_taken run, ?_⟩
  intro ES _ sink timeout
  refine ⟨fun kernel => ⟨?_, ?_⟩, fun kernel => ⟨?_, ?_⟩⟩
  · exact LosesNothing.delivers epoll sink timeout kernel
  · exact Epoll.result_eq_ok_iff epoll sink timeout kernel
  · exact LosesNothing.delivers kqueue sink timeout kernel
  · exact Kqueue.result_eq_ok_iff kqueue sink timeout kernel

/-- A kqueue that is not inherited by a child process: `kevent` fails with `EBADF`, whether or not
there is room. -/
theorem poll_without_room_fails :
    let kernel : ReadyList Kqueue.Kevent := ⟨[], .error 9, []⟩
    let sink : Bounded := ⟨0, []⟩
    Sink.capacityLeft sink = .limited 0
      ∧ (tapped (⟨3⟩ : Kqueue.Selector) sink none kernel).result = .error ⟨9⟩ :=
  ⟨rfl, rfl⟩

end Gaea.Sys
