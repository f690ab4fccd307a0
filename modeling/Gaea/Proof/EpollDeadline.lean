import Gaea.Proof.TimersTimeout
import Gaea.Sys.Epoll

/-!
# Waiting for a deadline with epoll

A poll of the operating system queue and the timers hands `epoll_wait` the time that is left until
the earliest deadline, in milliseconds. The conversion drops what is left of a millisecond, so the
kernel may return before the deadline has expired.
-/

namespace Gaea.Sys.Epoll

/-- A world in which the clock reads `reading` until a call of `epoll_wait` returns, and `after`
from then on. The timeouts that `epoll_wait` is given are kept. -/
structure OneWait where
  reading : Instant
  wait : Wait
  after : Instant
  timeouts : List Int32
deriving DecidableEq

instance : Clock OneWait := ⟨fun world => (world.reading, world)⟩

instance : Kernel OneWait where
  epollWait _ _ timeout world :=
    (world.wait,
      { world with reading := world.after, timeouts := world.timeouts ++ [timeout] })
  epollCtl _ _ _ _ world := ((0, 0), world)

/-- The events that a poll of the queue and the timers hands to a sink, with its result. -/
def pollDeadline {ES : Type} [Sink ES] (queue : OsQueue Selector) (timers : Timers) (sink : ES)
    (world : OneWait) : Polled (List (OsQueue Selector ⊕ Timers)) (Tap ES) IoError OneWait :=
  poll [.inl queue, .inr timers] ⟨sink, []⟩ none world

/-- Whatever the sink, if there is room in it and the kernel returns no events, no earlier than the
timeout it was given, then the poll delivers the deadline. -/
def DeliversInTime (timers : Timers) (now : Instant) (d : Deadline) : Prop :=
  ∀ (ES : Type) [Sink ES] (queue : OsQueue Selector) (sink : ES) (world : OneWait)
    (returned : Instant), Sink.capacityLeft sink ≠ .limited 0 →
    world.reading = now → world.timeouts = [] → world.wait.ret = 0 →
    (∀ timeout ∈ (pollDeadline queue timers sink world).world.timeouts, 0 ≤ timeout.toInt →
      now.nanos + timeout.toInt * nanosPerMilli ≤ returned.nanos) →
    returned ≤ world.after →
      (pollDeadline queue timers sink world).result = .ok ()
        ∧ d.toEvent ∈ (pollDeadline queue timers sink world).sink.log

section

variable {ES : Type} [Sink ES] {timers : Timers} {now : Instant} {d : Deadline}

/-- A wait without events leaves the sink alone and sets the clock forward. -/
theorem select_of_no_events (selector : Selector) (sink : ES) (timeout : Option Duration)
    (world : OneWait) (hroom : Sink.capacityLeft sink ≠ .limited 0) (hret : world.wait.ret = 0) :
    selector.select sink timeout world
      = (sink,
        { world with
          reading := world.after
          timeouts := world.timeouts ++ [(timeout.map durationToMillis).getD (-1)] },
        .ok ()) := by
  unfold Selector.select
  dsimp only [Kernel.epollWait]
  rw [if_neg (min_eventsCap_ne_zero hroom), hret, if_neg (by decide), if_pos rfl]

theorem pollDeadline_eq (queue : OsQueue Selector) (sink : ES) (world : OneWait)
    (hpeek : timers.peek = some d) (hroom : Sink.capacityLeft sink ≠ .limited 0)
    (hret : world.wait.ret = 0) :
    let polled := pollDeadline queue timers sink world
    polled.result = .ok ()
      ∧ polled.world.timeouts
        = world.timeouts ++ [durationToMillis (Timers.timeUntil d.deadline world.reading)]
      ∧ polled.sink.log
        = (timers.delivered world.after (⟨sink, []⟩ : Tap ES)).map Deadline.toEvent := by
  have hcomputed : computeTimeout (Tap ES) IoError none
      ([.inl queue, .inr timers] : List (OsQueue Selector ⊕ Timers)) world
      = (some (Timers.timeUntil d.deadline world.reading), world) := by
    change (minTimeout none (timers.maxTimeout world).1, (timers.maxTimeout world).2) = _
    rw [Timers.maxTimeout, hpeek]
    rfl
  have hselect := select_of_no_events queue.selector (⟨sink, []⟩ : Tap ES)
    (some (Timers.timeUntil d.deadline world.reading)) world hroom hret
  simp only [pollDeadline, poll, hcomputed, Source.blockingPoll, OsQueue.blockingPoll,
    SystemSelector.select, hselect, Polled.map]
  exact ⟨rfl, rfl, timers.handed_eq world.after sink⟩

/-- The earliest deadline is delivered if there is room for it and it has expired. -/
theorem toEvent_mem_delivered_iff (sink : ES) (hpeek : timers.peek = some d)
    (hroom : Sink.capacityLeft sink ≠ .limited 0) :
    d.toEvent ∈ (timers.delivered now sink).map Deadline.toEvent ↔ d.deadline ≤ now := by
  constructor
  · intro hmem
    by_contra hlate
    rw [Timers.delivered, Timers.ready_of_peek_not_expired hpeek hlate, Capacity.take_nil] at hmem
    cases hmem
  · intro hexpired
    obtain ⟨rest, hpop⟩ := Timers.exists_pop_of_peek hpeek
    apply List.mem_map_of_mem
    rw [Timers.delivered, Timers.ready_of_pop hpop hexpired]
    unfold Capacity.take
    split
    · rename_i left hleft
      cases left with
      | zero => exact absurd hleft hroom
      | succ left => exact List.mem_cons_self
    · exact List.mem_cons_self

/-- The milliseconds handed to `epoll_wait` for a deadline at most 24 hours away. -/
theorem toInt_durationToMillis
    (hday : d.deadline.nanos ≤ now.nanos + 24 * 60 * 60 * 1000 * nanosPerMilli) :
    (durationToMillis (Timers.timeUntil d.deadline now)).toInt
      = ((d.deadline.nanos - now.nanos) / nanosPerMilli : Nat) := by
  have hmillis : (d.deadline.nanos - now.nanos) / nanosPerMilli ≤ 24 * 60 * 60 * 1000 := by
    apply Nat.div_le_of_le_mul
    unfold nanosPerMilli at hday ⊢
    omega
  rw [toInt_durationToMillis_eq, Duration.asMillis, Timers.nanos_timeUntil, min_eq_left hmillis]

end

/-- **Waiting for a deadline with epoll.** For a deadline at most 24 hours away, the poll is sure
to deliver it after a wait without events if and only if it lies a whole number of milliseconds
away. -/
theorem deliversInTime_iff {timers : Timers} {now : Instant} {d : Deadline}
    (hd : d ∈ timers.pending) (hmin : ∀ e ∈ timers.pending, d ≤ e) (hlater : now < d.deadline)
    (hday : d.deadline.nanos ≤ now.nanos + 24 * 60 * 60 * 1000 * nanosPerMilli) :
    DeliversInTime timers now d ↔ (d.deadline.nanos - now.nanos) % nanosPerMilli = 0 := by
  have hpeek := Timers.peek_of_le hd hmin
  have hmillis := toInt_durationToMillis hday
  have hdiv := Nat.div_add_mod (d.deadline.nanos - now.nanos) nanosPerMilli
  have hnow := Instant.lt_iff.mp hlater
  constructor
  · intro hdelivers
    -- the kernel may return as soon as the timeout it was given is over
    let returned : Instant :=
      ⟨now.nanos + (d.deadline.nanos - now.nanos) / nanosPerMilli * nanosPerMilli, by
        have := d.deadline.lt_bound
        rw [Nat.mul_comm]
        omega⟩
    let world : OneWait := ⟨now, ⟨0, [], 0⟩, returned, []⟩
    have hroom : Sink.capacityLeft ([] : List Event) ≠ .limited 0 := by
      intro hleft
      cases hleft
    obtain ⟨-, htimeouts, hlog⟩ := pollDeadline_eq ⟨⟨0⟩⟩ ([] : List Event) world hpeek hroom rfl
    obtain ⟨-, hmem⟩ := hdelivers (List Event) ⟨⟨0⟩⟩ [] world returned hroom rfl rfl rfl
      (by
        intro timeout htimeout _
        rw [htimeouts, List.nil_append, List.mem_singleton] at htimeout
        rw [htimeout, hmillis]
        simp [returned])
      le_rfl
    rw [hlog, toEvent_mem_delivered_iff (⟨[], []⟩ : Tap (List Event)) hpeek hroom] at hmem
    have hexpired : d.deadline.nanos
      ≤ now.nanos + (d.deadline.nanos - now.nanos) / nanosPerMilli * nanosPerMilli := hmem
    rw [Nat.mul_comm] at hexpired
    omega
  · intro hwhole ES _ queue sink world returned hroom hreading hstart hret hkernel hreturned
    obtain ⟨hresult, htimeouts, hlog⟩ := pollDeadline_eq queue sink world hpeek hroom hret
    have hkept := hkernel (durationToMillis (Timers.timeUntil d.deadline now))
      (by rw [htimeouts, hreading]; simp)
      (by rw [hmillis]; exact Int.natCast_nonneg _)
    rw [hmillis] at hkept
    refine ⟨hresult, ?_⟩
    rw [hlog, toEvent_mem_delivered_iff (⟨sink, []⟩ : Tap ES) hpeek hroom]
    have hexpired : d.deadline ≤ returned := by
      rw [Instant.le_iff]
      rw [Nat.mul_comm] at hdiv
      omega
    calc d.deadline ≤ returned := hexpired
      _ ≤ world.after := hreturned

theorem deliversInTime_two_millis :
    let d : Deadline := ⟨⟨2 * nanosPerMilli, by decide⟩, ⟨1⟩⟩
    DeliversInTime (Timers.new.addDeadline d.id d.deadline) ⟨0, by decide⟩ d := by
  intro d
  have hpending : (Timers.new.addDeadline d.id d.deadline).pending = {d} := by
    rw [Timers.pending_addDeadline, Timers.pending_new]
    rfl
  refine (deliversInTime_iff ?_ ?_ ?_ ?_).mpr (by decide)
  · rw [hpending, Multiset.mem_singleton]
  · intro e he
    rw [hpending, Multiset.mem_singleton] at he
    exact he.ge
  · decide
  · decide

/-- A deadline one and a half milliseconds away: the kernel is asked to wait for one millisecond,
and when it has done so nothing has expired. -/
theorem not_deliversInTime_half_milli :
    let d : Deadline := ⟨⟨nanosPerMilli + nanosPerMilli / 2, by decide⟩, ⟨1⟩⟩
    ¬ DeliversInTime (Timers.new.addDeadline d.id d.deadline) ⟨0, by decide⟩ d := by
  intro d hdelivers
  let world : OneWait := ⟨⟨0, by decide⟩, ⟨0, [], 0⟩, ⟨nanosPerMilli, by decide⟩, []⟩
  let timers := Timers.new.addDeadline d.id d.deadline
  have htimeouts : (pollDeadline ⟨⟨0⟩⟩ timers ([] : List Event) world).world.timeouts = [1] := by
    decide +kernel
  have hlog : (pollDeadline ⟨⟨0⟩⟩ timers ([] : List Event) world).sink.log = [] := by
    decide +kernel
  have hroom : Sink.capacityLeft ([] : List Event) ≠ .limited 0 := by
    intro hleft
    cases hleft
  obtain ⟨-, hmem⟩ := hdelivers (List Event) ⟨⟨0⟩⟩ [] world world.after hroom rfl rfl rfl
    (by
      intro timeout htimeout _
      rw [htimeouts, List.mem_singleton] at htimeout
      rw [htimeout]
      decide)
    le_rfl
  rw [hlog] at hmem
  cases hmem

end Gaea.Sys.Epoll
