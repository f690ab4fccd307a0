import Gaea.Library.Notifier
import Mathlib.Algebra.Ring.Nat

/-!
# Awakeners backed by a file

On Linux an awakener is an `eventfd`, a counter that writes add to and reads set back to zero. On
NetBSD and OpenBSD it is a pipe whose two ends the awakener both holds. Either is registered
edge-triggered, so a write marks the registration and a poll takes the mark.

A clone of an awakener shares the file with it. A call of `wake` runs from one write or read of the
file to the next, and what it computes between them belongs to the step of the operation before.
-/

namespace Gaea.Sys

open Notifier

/-- `io::ErrorKind`, as far as the awakeners tell errors apart. -/
inductive ErrorKind where
  | wouldBlock
  | interrupted
  | other (code : Nat)
deriving DecidableEq

/-- What a read or a write returns: the number of bytes, or an error. -/
abbrev Transferred := Except ErrorKind Nat

def Transferred.isOk : Transferred → Bool
  | .ok _ => true
  | .error _ => false

/-! ## The eventfd awakener -/

namespace Eventfd

def maxCounter : Nat := 2 ^ 64 - 2

structure Counter where
  count : Nat
  count_le : count ≤ maxCounter

namespace Counter

def write (counter : Counter) : Transferred × Counter :=
  if h : counter.count < maxCounter then (.ok 8, ⟨counter.count + 1, h⟩)
  else (.error .wouldBlock, counter)

def read (counter : Counter) : Transferred × Counter :=
  if counter.count = 0 then (.error .wouldBlock, counter) else (.ok 8, ⟨0, Nat.zero_le _⟩)

/-- A counter reads as ready when it is not zero. -/
def device : Device Counter Transferred where
  readable counter := counter.count != 0
  perform
    | .write, before, answer, after => before.write = (answer, after)
    | .read, before, answer, after => before.read = (answer, after)
  succeeded := Transferred.isOk

end Counter

/-- The operations of a call of `wake`: its write, and the read of `reset`. -/
inductive Point where
  | wake
  | reset
deriving DecidableEq

namespace Awakener

/-- What `wake` does with the result of its write. A write only blocks if the counter is going to
overflow, so the counter is reset before it is tried again. -/
def wake : Transferred → Outcome Point ErrorKind
  | .ok _ => .returned (.ok ())
  | .error .wouldBlock => .running .reset
  | .error err => .returned (.error err)

/-- What `reset` does with the result of its read: it goes back to `wake`, unless it fails. -/
def reset : Transferred → Outcome Point ErrorKind
  | .ok _ => .running .wake
  | .error .wouldBlock => .running .wake
  | .error err => .returned (.error err)

def program : Program Point Transferred ErrorKind where
  start := .wake
  op
    | .wake => .write
    | .reset => .read
  next
    | .wake => wake
    | .reset => reset

end Awakener

end Eventfd

/-! ## The pipe awakener -/

namespace Pipe

structure Buffer (capacity : Nat) where
  fill : Nat
  fill_le : fill ≤ capacity

namespace Buffer

variable {capacity : Nat}

def write (buffer : Buffer capacity) : Transferred × Buffer capacity :=
  if h : buffer.fill < capacity then (.ok 1, ⟨buffer.fill + 1, h⟩)
  else (.error .wouldBlock, buffer)

def read (len : Nat) (buffer : Buffer capacity) : Transferred × Buffer capacity :=
  if buffer.fill = 0 then (.error .wouldBlock, buffer)
  else
    (.ok (min buffer.fill len),
      ⟨buffer.fill - min buffer.fill len, (Nat.sub_le _ _).trans buffer.fill_le⟩)

/-- Either operation may be interrupted before it has had an effect. -/
def device (len capacity : Nat) : Device (Buffer capacity) Transferred where
  readable buffer := buffer.fill != 0
  perform
    | .write, before, answer, after =>
        before.write = (answer, after) ∨ answer = .error .interrupted ∧ after = before
    | .read, before, answer, after =>
        before.read len = (answer, after) ∨ answer = .error .interrupted ∧ after = before
  succeeded := Transferred.isOk

end Buffer

/-- The operations of a call of `wake`: its write, and the reads in the loop of `empty`. -/
inductive Point where
  | wake
  | empty
deriving DecidableEq

namespace Awakener

def bufLen : Nat := 4096

/-- What `wake` does with the result of its write: when the pipe is full it is emptied first. -/
def wake : Transferred → Outcome Point ErrorKind
  | .ok _ => .returned (.ok ())
  | .error .wouldBlock => .running .empty
  | .error .interrupted => .running .wake
  | .error err => .returned (.error err)

/-- What `empty` does with the result of a read: it reads on after some bytes, and goes back to
`wake` after anything else, an error included. -/
def empty : Transferred → Outcome Point ErrorKind
  | .ok n => if n > 0 then .running .empty else .running .wake
  | .error _ => .running .wake

def program : Program Point Transferred ErrorKind where
  start := .wake
  op
    | .wake => .write
    | .empty => .read
  next
    | .wake => wake
    | .empty => empty

end Awakener

end Pipe

end Gaea.Sys
