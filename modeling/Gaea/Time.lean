import Mathlib.Algebra.Ring.Nat
import Mathlib.Order.Lattice

/-!
# Durations, instants and the clock

`Duration` is a `u64` number of seconds with a number of nanoseconds below one billion, and
`Instant` is a bounded count of the same kind, here measured from the earliest instant that can be
written down. Both are kept as their total number of nanoseconds.
-/

namespace Gaea

def nanosPerSec : Nat := 1000000000

def nanosPerMilli : Nat := 1000000

/-- The number of nanoseconds that `2 ^ 64` seconds hold. -/
def nanosBound : Nat := 2 ^ 64 * nanosPerSec

structure Duration where
  nanos : Nat
  lt_bound : nanos < nanosBound
deriving DecidableEq, Repr

structure Instant where
  nanos : Nat
  lt_bound : nanos < nanosBound
deriving DecidableEq, Repr

namespace Duration

@[ext]
theorem ext {d e : Duration} (h : d.nanos = e.nanos) : d = e := by
  cases d
  cases e
  simpa using h

instance : LinearOrder Duration := LinearOrder.lift' Duration.nanos fun _ _ h => Duration.ext h

def asSecs (d : Duration) : Nat := d.nanos / nanosPerSec

def subsecNanos (d : Duration) : Nat := d.nanos % nanosPerSec

def asMillis (d : Duration) : Nat := d.nanos / nanosPerMilli

def fromMillis (millis : Nat) (h : millis < 2 ^ 64) : Duration :=
  ⟨millis * nanosPerMilli, by
    unfold nanosBound nanosPerSec nanosPerMilli
    omega⟩

/-- `Duration::from_millis(0)`, which does not block. -/
def zero : Duration := fromMillis 0 (by decide)

end Duration

namespace Instant

@[ext]
theorem ext {t u : Instant} (h : t.nanos = u.nanos) : t = u := by
  cases t
  cases u
  simpa using h

instance : LinearOrder Instant := LinearOrder.lift' Instant.nanos fun _ _ h => Instant.ext h

theorem le_iff {t u : Instant} : t ≤ u ↔ t.nanos ≤ u.nanos := Iff.rfl

theorem lt_iff {t u : Instant} : t < u ↔ t.nanos < u.nanos := Iff.rfl

/-- The time since an `earlier` instant. The standard library panics when `earlier` is later: every
caller has to show that it is not. -/
def durationSince (t earlier : Instant) (_h : earlier ≤ t) : Duration :=
  ⟨t.nanos - earlier.nanos, Nat.lt_of_le_of_lt (Nat.sub_le _ _) t.lt_bound⟩

@[simp]
theorem nanos_durationSince {t earlier : Instant} (h : earlier ≤ t) :
    (t.durationSince earlier h).nanos = t.nanos - earlier.nanos := rfl

/-- `Instant + Duration`, which panics when the sum cannot be represented. -/
def add (t : Instant) (d : Duration) : Option Instant :=
  if h : t.nanos + d.nanos < nanosBound then some ⟨t.nanos + d.nanos, h⟩ else none

end Instant

class Clock (W : Type) where
  now : W → Instant × W

structure FixedClock where
  reading : Instant

instance : Clock FixedClock := ⟨fun w => (w.reading, w)⟩

end Gaea
