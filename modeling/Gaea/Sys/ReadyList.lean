import Gaea.Sys.Epoll
import Gaea.Sys.Kqueue

/-!
# A ready list in the kernel

What `epoll_wait` and `kevent` have in common when they wait for events: the entries that are ready
stand in a list, and a call with room for some number of entries either fails or takes entries off
the front of the list, as many as the kernel pleases.
-/

namespace Gaea.Sys

/-- A call that waits for events: the room it was given, what it returned, and the entries that it
wrote to the start of the array. -/
structure WaitCall (Entry : Type) where
  room : Nat
  ret : Int32
  written : List Entry
deriving DecidableEq

structure ReadyList (Entry : Type) where
  ready : List Entry
  /-- The error of the next call, or the number of entries that it is going to take at most. -/
  answer : Except Int32 Nat
  calls : List (WaitCall Entry)

namespace ReadyList

variable {Entry : Type}

def append (kernel : ReadyList Entry) (entries : List Entry) : ReadyList Entry :=
  { kernel with ready := kernel.ready ++ entries }

/-- The entries that a call with this much room takes off the list. -/
def front (kernel : ReadyList Entry) (room count : Nat) : List Entry :=
  kernel.ready.take (min count room)

/-- A call with this much room: its return value, what it has written, and its error number. -/
def wait (kernel : ReadyList Entry) (room : Nat) :
    Int32 × List Entry × Int32 × ReadyList Entry :=
  match kernel.answer with
  | .error errno => (-1, [], errno, { kernel with calls := kernel.calls ++ [⟨room, -1, []⟩] })
  | .ok count =>
      let entries := kernel.front room count
      (Int32.ofNat entries.length, entries, 0,
        { kernel with
          ready := kernel.ready.drop (min count room)
          calls := kernel.calls ++ [⟨room, Int32.ofNat entries.length, entries⟩] })

/-- Only polls are made: the entry that `epoll_ctl` would change is not kept. -/
instance : Epoll.Kernel (ReadyList Epoll.EpollEvent) where
  epollWait _ maxevents _ kernel :=
    let answer := kernel.wait maxevents.toNatClampNeg
    (⟨answer.1, answer.2.1, answer.2.2.1⟩, answer.2.2.2)
  epollCtl _ _ _ _ kernel := ((0, 0), kernel)

instance : Kqueue.Kernel (ReadyList Kqueue.Kevent) where
  timeBits := 64
  longBits := 64
  kevent _ _ nevents _ kernel :=
    let answer := kernel.wait nevents
    (⟨answer.1, answer.2.1, answer.2.2.1⟩, answer.2.2.2)

end ReadyList

end Gaea.Sys
