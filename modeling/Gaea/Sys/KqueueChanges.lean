import Gaea.Sys.KqueueKernel

/-!
# How a kqueue answers a list of changes

The outcome of each change is up to the kernel: any of them may fail, with any error. What is kept
here besides the filters is what a caller must not touch when it only makes changes: the events that
are pending, and whether the kernel has waited for any.
-/

namespace Gaea.Sys.Kqueue

structure ChangeQueue where
  knotes : Key → Option Knote
  pending : List Kevent
  waited : Bool
  /-- The error of a change, zero when it succeeds. -/
  outcome : Kevent → Int64
  /-- The error of calls that fail as a whole. -/
  callError : Option Int32

namespace ChangeQueue

/-- Make one change. A change that fails leaves its filter alone. -/
def change (queue : ChangeQueue) (change : Kevent) : ChangeQueue :=
  if queue.outcome change != 0 then queue
  else if containsFlag change.flags evAdd then
    { queue with
      knotes := Function.update queue.knotes change.key
        (some (change.added (queue.knotes change.key))) }
  else if containsFlag change.flags evDelete then
    { queue with knotes := Function.update queue.knotes change.key none }
  else queue

def makeChanges (queue : ChangeQueue) (changes : List Kevent) : ChangeQueue :=
  changes.foldl change queue

/-- The receipts of the changes that ask for one, or that fail. -/
def receipts (queue : ChangeQueue) (changes : List Kevent) : List Kevent :=
  (changes.filter fun change =>
      containsFlag change.flags evReceipt || queue.outcome change != 0).map fun change =>
    KernelQueue.receipt change (queue.outcome change)

/-- Without a receipt to write, and with room, the call goes on to wait for events. -/
def kevent (changes : List Kevent) (nevents : Nat) (queue : ChangeQueue) : Answer × ChangeQueue :=
  match queue.callError with
  -- all changes have been made when the call is interrupted, and none when it fails otherwise
  | some errno => (⟨-1, [], errno⟩, if errno = eintr then queue.makeChanges changes else queue)
  | none =>
      let written := queue.receipts changes
      let made := queue.makeChanges changes
      if written.isEmpty && 0 < nevents then
        let events := made.pending.take nevents
        (⟨Int32.ofNat events.length, events, 0⟩,
          { made with pending := made.pending.drop nevents, waited := true })
      else (⟨Int32.ofNat written.length, written, 0⟩, made)

instance : Kernel ChangeQueue where
  timeBits := 64
  longBits := 64
  kevent _ changes nevents _ queue := queue.kevent changes nevents

end ChangeQueue

end Gaea.Sys.Kqueue
