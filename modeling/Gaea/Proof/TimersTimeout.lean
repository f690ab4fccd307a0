import Gaea.Observe
import Gaea.Proof.TimersSpec

/-!
# The timeout of the timers and what they deliver

`max_timeout` and `poll` each compare the earliest deadline with a clock reading of their own. They
agree on which deadline that is, and on when it has expired.
-/

namespace Gaea.Timers

variable {ES : Type} [Sink ES] {timers : Timers} {now : Instant}

/-! ## What a poll hands over -/

/-- The events that a poll at `now` hands to a sink. -/
def handed (timers : Timers) (now : Instant) (sink : ES) : List Event :=
  (timers.poll now (⟨sink, []⟩ : Tap ES)).2.log

theorem handed_eq (timers : Timers) (now : Instant) (sink : ES) :
    timers.handed now sink
      = ((Sink.capacityLeft sink).take (timers.ready now)).map Deadline.toEvent := by
  rw [handed, poll_sink, Tap.log_foldl_add, List.nil_append]
  rfl

theorem ready_eq_nil_iff : timers.ready now = [] ↔ ∀ d ∈ timers.pending, now < d.deadline := by
  simp only [List.eq_nil_iff_forall_not_mem, mem_ready, not_and, not_le]

theorem handed_eq_nil_of_early (hearly : ∀ d ∈ timers.pending, now < d.deadline) (sink : ES) :
    timers.handed now sink = [] := by
  rw [handed_eq, ready_eq_nil_iff.mpr hearly, Capacity.take_nil, List.map_nil]

theorem handed_ne_nil_iff {sink : ES} (hroom : Sink.capacityLeft sink ≠ .limited 0) :
    timers.handed now sink ≠ [] ↔ ∃ d ∈ timers.pending, d.deadline ≤ now := by
  rw [handed_eq, ne_eq, List.map_eq_nil_iff, Capacity.take_eq_nil_iff hroom, ready_eq_nil_iff]
  simp only [not_forall, not_lt, exists_prop]

/-! ## The timeout -/

theorem nanos_timeUntil (deadline now : Instant) :
    (timeUntil deadline now).nanos = deadline.nanos - now.nanos := by
  unfold timeUntil
  split_ifs with hexpired
  · exact (Nat.sub_eq_zero_of_le hexpired).symm
  · exact Instant.nanos_durationSince _

theorem timeUntil_eq_zero_iff {deadline now : Instant} :
    timeUntil deadline now = Duration.zero ↔ deadline ≤ now := by
  constructor
  · intro hzero
    have hnanos := nanos_timeUntil deadline now
    rw [hzero] at hnanos
    exact Nat.sub_eq_zero_iff_le.mp hnanos.symm
  · intro hexpired
    exact dif_pos hexpired

variable {W : Type} [Clock W]

theorem maxTimeout_eq (timers : Timers) (world : W) :
    (timers.maxTimeout world).1
      = timers.peek.map fun d => timeUntil d.deadline (Clock.now world).1 := by
  unfold maxTimeout
  cases timers.peek <;> rfl

theorem maxTimeout_eq_none_iff {world : W} :
    (timers.maxTimeout world).1 = none ↔ timers.pending = 0 := by
  rw [maxTimeout_eq, Option.map_eq_none_iff, peek_eq_none_iff]

/-- A timeout is the time that is left until the earliest deadline. -/
theorem exists_of_maxTimeout_eq_some {world : W} {timeout : Duration}
    (htimeout : (timers.maxTimeout world).1 = some timeout) :
    ∃ d ∈ timers.pending, (∀ e ∈ timers.pending, d.deadline ≤ e.deadline)
      ∧ timeout = timeUntil d.deadline (Clock.now world).1 := by
  rw [maxTimeout_eq] at htimeout
  obtain ⟨d, hpeek, rfl⟩ := Option.map_eq_some_iff.mp htimeout
  refine ⟨d, mem_of_peek hpeek, fun e he => ?_, rfl⟩
  exact Deadline.deadline_le_of_le (le_of_peek hpeek he)

theorem maxTimeout_eq_zero_iff {world : W} :
    (timers.maxTimeout world).1 = some Duration.zero
      ↔ ∃ d ∈ timers.pending, d.deadline ≤ (Clock.now world).1 := by
  constructor
  · intro hzero
    obtain ⟨d, hd, -, htimeout⟩ := exists_of_maxTimeout_eq_some hzero
    exact ⟨d, hd, timeUntil_eq_zero_iff.mp htimeout.symm⟩
  · rintro ⟨e, he, hexpired⟩
    cases htimeout : (timers.maxTimeout world).1 with
    | none =>
        rw [maxTimeout_eq_none_iff.mp htimeout] at he
        cases Multiset.notMem_zero e he
    | some timeout =>
        obtain ⟨d, hd, hmin, rfl⟩ := exists_of_maxTimeout_eq_some htimeout
        rw [timeUntil_eq_zero_iff.mpr ((hmin e he).trans hexpired)]

/-- **The timeout of the timers and their polls agree.** There is none when nothing is pending. It
is zero when a poll at the same time delivers something, if it has room. Otherwise it is the time
until which polls deliver nothing, and from which on they do. -/
theorem maxTimeout_agrees_with_poll (timers : Timers) (world : W) :
    ((timers.maxTimeout world).1 = none ↔ timers.pending = 0)
    ∧ (∀ (ES : Type) [Sink ES] (sink : ES), Sink.capacityLeft sink ≠ .limited 0 →
      ((timers.maxTimeout world).1 = some Duration.zero
        ↔ timers.handed (Clock.now world).1 sink ≠ []))
    ∧ ∀ timeout, (timers.maxTimeout world).1 = some timeout → timeout ≠ Duration.zero →
      0 < timeout.nanos ∧ ∀ (ES : Type) [Sink ES] (sink : ES) (t : Instant),
        (t.nanos < (Clock.now world).1.nanos + timeout.nanos → timers.handed t sink = [])
        ∧ (Sink.capacityLeft sink ≠ .limited 0 →
          (Clock.now world).1.nanos + timeout.nanos ≤ t.nanos → timers.handed t sink ≠ []) := by
  refine ⟨maxTimeout_eq_none_iff, ?_, ?_⟩
  · intro ES _ sink hroom
    rw [maxTimeout_eq_zero_iff, handed_ne_nil_iff hroom]
  · intro timeout htimeout hne
    obtain ⟨d, hd, hmin, rfl⟩ := exists_of_maxTimeout_eq_some htimeout
    have hlater : (Clock.now world).1 < d.deadline :=
      not_le.mp fun hexpired => hne (timeUntil_eq_zero_iff.mpr hexpired)
    rw [Instant.lt_iff] at hlater
    rw [nanos_timeUntil]
    refine ⟨by omega, fun ES _ sink t => ⟨fun hearly => ?_, fun hroom hlate => ?_⟩⟩
    · apply handed_eq_nil_of_early
      intro e he
      have hle := hmin e he
      rw [Instant.le_iff] at hle
      rw [Instant.lt_iff]
      omega
    · rw [handed_ne_nil_iff hroom]
      refine ⟨d, hd, ?_⟩
      rw [Instant.le_iff]
      omega

end Gaea.Timers
