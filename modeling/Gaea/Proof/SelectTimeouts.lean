import Gaea.Sys.Epoll
import Gaea.Sys.Kqueue
import Mathlib.Algebra.Order.Ring.Int
import Mathlib.Algebra.Order.Group.Unbundled.Abs

/-!
# The timeouts of the selectors

Each selector turns the timeout of a blocking poll into what its system call takes: a 32 bit number
of milliseconds for `epoll_wait`, where `-1` is no timeout, and a `timespec` for `kevent`, where a
null pointer is. A limit is applied before the number is narrowed, so it never wraps, but the two
limits are not the same.
-/

namespace Gaea.Sys

/-! ## epoll -/

namespace Epoll

/-- A world that keeps the timeouts `epoll_wait` is given, however it answers. -/
structure Recorder where
  wait : Wait
  timeouts : List Int32

instance : Kernel Recorder where
  epollWait _ _ timeout world :=
    (world.wait, { world with timeouts := world.timeouts ++ [timeout] })
  epollCtl _ _ _ _ world := ((0, 0), world)

def timeoutMs (timeout : Option Duration) : Int32 := (timeout.map durationToMillis).getD (-1)

theorem timeoutMs_eq_neg_one_iff (timeout : Option Duration) :
    timeoutMs timeout = -1 ↔ timeout = none := by
  cases timeout with
  | none => exact iff_of_true rfl rfl
  | some d =>
      refine iff_of_false (fun hms => ?_) nofun
      have hmillis := toInt_durationToMillis_eq d
      rw [show durationToMillis d = -1 from hms] at hmillis
      have hminus : (-1 : Int32).toInt = -1 := by decide
      omega

theorem asMillis_mono {d e : Duration} (h : d ≤ e) : d.asMillis ≤ e.asMillis :=
  Nat.div_le_div_right h

theorem durationToMillis_mono {d e : Duration} (h : d ≤ e) :
    (durationToMillis d).toInt ≤ (durationToMillis e).toInt := by
  rw [toInt_durationToMillis_eq, toInt_durationToMillis_eq]
  exact Int.ofNat_le.mpr (min_le_min_right _ (asMillis_mono h))

section

variable {ES : Type} [Sink ES]

theorem timeouts_select (selector : Selector) (sink : ES) (timeout : Option Duration)
    (world : Recorder) (hroom : Sink.capacityLeft sink ≠ .limited 0) :
    (selector.select sink timeout world).2.1.timeouts = world.timeouts ++ [timeoutMs timeout] := by
  unfold Selector.select
  rw [if_neg (min_eventsCap_ne_zero hroom)]
  dsimp only [Kernel.epollWait]
  split_ifs <;> rfl

theorem timeouts_select_of_no_room (selector : Selector) (sink : ES) (timeout : Option Duration)
    (world : Recorder) (hroom : Sink.capacityLeft sink = .limited 0) :
    (selector.select sink timeout world).2.1.timeouts = world.timeouts := by
  rw [select_of_no_room selector timeout world hroom]

end

end Epoll

/-! ## kqueue -/

namespace Kqueue

/-- A world that keeps the timeouts `kevent` is given, a null pointer as `none`. -/
structure Recorder (timeBits longBits : Nat) where
  answer : Answer
  timeouts : List (Option (Timespec timeBits longBits))

variable {timeBits longBits : Nat}

instance : Kernel (Recorder timeBits longBits) where
  timeBits := timeBits
  longBits := longBits
  kevent _ _ _ timeout world :=
    (world.answer, { world with timeouts := world.timeouts ++ [timeout] })

theorem subsecNanos_lt (d : Duration) : d.subsecNanos < nanosPerSec :=
  Nat.mod_lt _ (by decide)

theorem toInt_tvSec (htime : 0 < timeBits) (d : Duration) :
    (timespecFromDuration timeBits longBits d).tvSec.toInt
      = (min d.asSecs (2 ^ (timeBits - 1) - 1) : Nat) := by
  have hmax : 2 ^ timeBits = 2 * 2 ^ (timeBits - 1) := by
    rw [← Nat.pow_succ', Nat.succ_eq_add_one, Nat.sub_one_add_one htime.ne']
  have hpos : 0 < 2 ^ (timeBits - 1) := Nat.two_pow_pos _
  have hlt : 2 * min d.asSecs (2 ^ (timeBits - 1) - 1) < 2 ^ timeBits := by omega
  have htoNat : (BitVec.ofNat timeBits (min d.asSecs (2 ^ (timeBits - 1) - 1))).toNat
      = min d.asSecs (2 ^ (timeBits - 1) - 1) := by
    rw [BitVec.toNat_ofNat, Nat.mod_eq_of_lt (by omega)]
  rw [timespecFromDuration, BitVec.toInt_eq_toNat_of_lt (by rwa [htoNat]), htoNat]

theorem toInt_tvNsec (hlong : 32 ≤ longBits) (d : Duration) :
    (timespecFromDuration timeBits longBits d).tvNsec.toInt = d.subsecNanos := by
  have hlt := subsecNanos_lt d
  unfold nanosPerSec at hlt
  have htoNat : (BitVec.ofNat 32 d.subsecNanos).toNat = d.subsecNanos := by
    rw [BitVec.toNat_ofNat, Nat.mod_eq_of_lt (by omega)]
  rw [timespecFromDuration, BitVec.toInt_signExtend_of_le hlong,
    BitVec.toInt_eq_toNat_of_lt (by omega), htoNat]

theorem timeouts_select {ES : Type} [Sink ES] (selector : Selector) (sink : ES)
    (timeout : Option Duration) (world : Recorder timeBits longBits) :
    (selector.select sink timeout world).2.1.timeouts
      = world.timeouts ++ [timeout.map (timespecFromDuration timeBits longBits)] := by
  unfold Selector.select
  dsimp only [Kernel.kevent]
  split_ifs <;> rfl

end Kqueue

/-! ## No timeout is malformed -/

section

variable {timeBits longBits : Nat}

/-- **No timeout is malformed.** On epoll, `-1` is handed over for no timeout and for no other, and
every other number of milliseconds is that of the duration, up to 24 hours. On kqueue, the pointer
is null for no timeout and for no other, the seconds are those of the duration, up to the greatest
`time_t`, and the nanoseconds are exact. -/
theorem timeouts_well_formed (htime : 0 < timeBits) (hlong : 32 ≤ longBits) :
    ((∀ (ES : Type) [Sink ES] (queue : OsQueue Epoll.Selector) (sink : ES)
        (timeout : Option Duration) (world : Epoll.Recorder),
        (queue.blockingPoll sink timeout world : Polled _ ES IoError _).world.timeouts
          = if Sink.capacityLeft sink = .limited 0 then world.timeouts
            else world.timeouts ++ [Epoll.timeoutMs timeout])
      ∧ (∀ timeout, Epoll.timeoutMs timeout = -1 ↔ timeout = none)
      ∧ (∀ d : Duration, 0 ≤ (Epoll.timeoutMs (some d)).toInt
        ∧ (Epoll.timeoutMs (some d)).toInt ≤ 86400000
        ∧ (Epoll.timeoutMs (some d)).toInt = (min d.asMillis 86400000 : Nat)
        ∧ (d.nanos < 24 * 60 * 60 * nanosPerSec →
          (Epoll.timeoutMs (some d)).toInt = d.asMillis))
      ∧ ∀ d e : Duration, d ≤ e →
        (Epoll.timeoutMs (some d)).toInt ≤ (Epoll.timeoutMs (some e)).toInt)
    ∧ (∀ (ES : Type) [Sink ES] (queue : OsQueue Kqueue.Selector) (sink : ES)
        (timeout : Option Duration) (world : Kqueue.Recorder timeBits longBits),
        ∃ timespec : Option (Kqueue.Timespec timeBits longBits),
          (queue.blockingPoll sink timeout world : Polled _ ES IoError _).world.timeouts
            = world.timeouts ++ [timespec]
          ∧ (timespec = none ↔ timeout = none)
          ∧ ∀ (d : Duration) (t : Kqueue.Timespec timeBits longBits), timeout = some d →
            timespec = some t →
            0 ≤ t.tvSec.toInt ∧ t.tvSec.toInt = (min d.asSecs (2 ^ (timeBits - 1) - 1) : Nat)
              ∧ 0 ≤ t.tvNsec.toInt ∧ t.tvNsec.toInt < nanosPerSec
              ∧ t.tvNsec.toInt = d.subsecNanos
              ∧ (d.asSecs < 2 ^ (timeBits - 1) → t.tvSec.toInt = d.asSecs)) := by
  refine ⟨⟨?_, Epoll.timeoutMs_eq_neg_one_iff, ?_, fun d e => Epoll.durationToMillis_mono⟩, ?_⟩
  · intro ES _ queue sink timeout world
    split_ifs with hroom
    · exact Epoll.timeouts_select_of_no_room queue.selector sink timeout world hroom
    · exact Epoll.timeouts_select queue.selector sink timeout world hroom
  · intro d
    have hmillis : (Epoll.timeoutMs (some d)).toInt = _ := Epoll.toInt_durationToMillis_eq d
    rw [hmillis]
    refine ⟨by omega, by omega, rfl, fun hday => ?_⟩
    have hlt : d.asMillis < 24 * 60 * 60 * 1000 := by
      apply Nat.div_lt_of_lt_mul
      unfold nanosPerSec at hday
      unfold nanosPerMilli
      omega
    rw [min_eq_left hlt.le]
  · intro ES _ queue sink timeout world
    refine ⟨_, Kqueue.timeouts_select queue.selector sink timeout world, Option.map_eq_none_iff,
      ?_⟩
    rintro d t rfl ht
    obtain rfl := Option.some.inj ht
    have hnanos := Kqueue.subsecNanos_lt d
    rw [Kqueue.toInt_tvSec htime, Kqueue.toInt_tvNsec hlong]
    refine ⟨by omega, rfl, by omega, by omega, rfl, fun hfits => ?_⟩
    rw [min_eq_left (by omega)]

/-- The longest `Duration` on a target where both types have 32 bits. -/
theorem timeouts_well_formed_longest :
    let longest : Duration := ⟨nanosBound - 1, by decide⟩
    let world : Kqueue.Recorder 32 32 := ⟨⟨0, [], 0⟩, []⟩
    ∃ timespec : Kqueue.Timespec 32 32,
      (OsQueue.blockingPoll (⟨⟨3⟩⟩ : OsQueue Kqueue.Selector) ([] : List Event) (some longest)
          world : Polled _ _ IoError _).world.timeouts = [some timespec]
        ∧ timespec.tvSec.toInt = 2 ^ 31 - 1 ∧ timespec.tvNsec.toInt = 999999999 := by
  intro longest world
  obtain ⟨timespec, htimeouts, hnone, hsome⟩ :=
    (timeouts_well_formed (by decide) le_rfl).2 (List Event) ⟨⟨3⟩⟩ [] (some longest) world
  cases timespec with
  | none => cases hnone.mp rfl
  | some t =>
      obtain ⟨-, hsec, -, -, hnsec, -⟩ := hsome longest t rfl rfl
      exact ⟨t, htimeouts, hsec.trans (by decide), hnsec.trans (by decide)⟩

/-! ## The two selectors -/

def Epoll.waitNanos (d : Duration) : Int := (durationToMillis d).toInt * nanosPerMilli

def Kqueue.waitNanos (timeBits longBits : Nat) (d : Duration) : Int :=
  (timespecFromDuration timeBits longBits d).tvSec.toInt * nanosPerSec
    + (timespecFromDuration timeBits longBits d).tvNsec.toInt

theorem Kqueue.waitNanos_eq (htime : 0 < timeBits) (hlong : 32 ≤ longBits) {d : Duration}
    (hfits : d.asSecs < 2 ^ (timeBits - 1)) : waitNanos timeBits longBits d = d.nanos := by
  rw [waitNanos, toInt_tvSec htime, toInt_tvNsec hlong, min_eq_left (by omega)]
  have hsplit : d.asSecs * nanosPerSec + d.subsecNanos = d.nanos := Nat.div_add_mod' _ _
  exact_mod_cast hsplit

/-- **The selectors wait for the same time up to 24 hours.** The two waits are less than one
millisecond apart if and only if the timeout is less than 24 hours and one millisecond: longer ones
are cut to 24 hours on epoll only. -/
theorem waits_agree_iff (htime : 0 < timeBits) (hlong : 32 ≤ longBits) {d : Duration}
    (hfits : d.asSecs < 2 ^ (timeBits - 1)) :
    |Epoll.waitNanos d - Kqueue.waitNanos timeBits longBits d| < nanosPerMilli
      ↔ d.nanos < (24 * 60 * 60 * 1000 + 1) * nanosPerMilli := by
  rw [Kqueue.waitNanos_eq htime hlong hfits, Epoll.waitNanos, Epoll.toInt_durationToMillis_eq,
    Duration.asMillis]
  unfold nanosPerMilli
  rw [abs_lt]
  omega

theorem waits_agree_longest :
    let d : Duration := ⟨(24 * 60 * 60 * 1000 + 1) * nanosPerMilli - 1, by decide⟩
    |Epoll.waitNanos d - Kqueue.waitNanos 32 32 d| < nanosPerMilli := by
  intro d
  exact (waits_agree_iff (by decide) le_rfl (by decide)).mpr (by decide)

/-- A timeout of 25 hours: epoll is asked to wait for an hour less than kqueue. -/
theorem waits_differ_25_hours :
    let d : Duration := ⟨25 * 60 * 60 * nanosPerSec, by decide⟩
    d.asSecs < 2 ^ 63 ∧ Epoll.waitNanos d = 24 * 60 * 60 * nanosPerSec
      ∧ Kqueue.waitNanos 64 64 d = 25 * 60 * 60 * nanosPerSec
      ∧ ¬ |Epoll.waitNanos d - Kqueue.waitNanos 64 64 d| < nanosPerMilli := by
  decide +kernel

end

end Gaea.Sys
