import Gaea.Sys.Kqueue

/-!
# A kqueue

What `kevent` does to the filters of a kqueue. The changes are made one by one. A change may be
refused, and then leaves its filter alone. Every change that asks for a receipt, or that fails, gets
one, and only a call that has written no receipt goes on to deliver events. A filter that was added
with `EV_ONESHOT` is gone once its event has been delivered.

Systems do not agree on what becomes of the flags of a filter that is added although it is there.
Here a change overwrites them, except for those of a user filter. All results about filters that are
added again rest on this assumption, `Kevent.added`.
-/

namespace Gaea.Sys.Kqueue

abbrev Key := UInt64 × Filter

def Kevent.key (kevent : Kevent) : Key := (kevent.ident, kevent.filter)

/-- The filters of a descriptor. -/
def descriptorKeys (fd : RawFd) : List Key := [(identOf fd, .read), (identOf fd, .write)]

/-- A filter in the queue, with the flags and the user data it was added with. -/
structure Knote where
  flags : UInt32
  udata : UInt64
deriving DecidableEq, Repr

def Knote.isOneshot (knote : Knote) : Bool := containsFlag knote.flags evOneshot

/-- The event of a filter. -/
def Knote.kevent (knote : Knote) (key : Key) : Kevent :=
  ⟨key.1, key.2, knote.flags, 0, 0, knote.udata⟩

/-- What a filter is once a change has added it. A filter that was there before is overwritten, but
a user filter keeps its flags. -/
def Kevent.added (change : Kevent) (knote : Option Knote) : Knote :=
  match change.filter, knote with
  | .user, some knote => ⟨knote.flags, change.udata⟩
  | _, _ => ⟨change.flags, change.udata⟩

/-- The state of a kqueue, and how it is going to answer. -/
structure KernelQueue where
  knotes : Key → Option Knote
  /-- The filters that are going to fire, in the order of their events. -/
  active : List Key
  /-- The changes that are going to be refused, with the error. -/
  refuse : Kevent → Option Int64
  /-- Zero is not an error, and `ENOENT` is kept for filters that are not there. -/
  refuse_ne (change : Kevent) (errno : Int64) :
    refuse change = some errno → errno ≠ 0 ∧ errno ≠ enoent
  /-- The error of calls that fail as a whole, before any change is made. -/
  callError : Option Int32
  callError_ne (errno : Int32) : callError = some errno → errno ≠ eintr

namespace KernelQueue

def empty : KernelQueue where
  knotes _ := none
  active := []
  refuse _ := none
  refuse_ne := nofun
  callError := none
  callError_ne := nofun

def setKnote (kqueue : KernelQueue) (key : Key) (knote : Option Knote) : KernelQueue :=
  { kqueue with knotes := Function.update kqueue.knotes key knote }

/-- Make one change, with the error that its receipt carries, zero when there is none. -/
def change (kqueue : KernelQueue) (change : Kevent) : Int64 × KernelQueue :=
  match kqueue.refuse change with
  | some errno => (errno, kqueue)
  | none =>
      if containsFlag change.flags evAdd then
        (0, kqueue.setKnote change.key (some (change.added (kqueue.knotes change.key))))
      else if containsFlag change.flags evDelete then
        if (kqueue.knotes change.key).isSome then (0, kqueue.setKnote change.key none)
        else (enoent, kqueue)
      else (0, kqueue)

def receipt (change : Kevent) (errno : Int64) : Kevent :=
  { change with flags := change.flags ||| evError, data := errno }

/-- Make the changes one by one, with the receipts of those that get one. -/
def makeChanges : List Kevent → KernelQueue → List Kevent × KernelQueue
  | [], kqueue => ([], kqueue)
  | change :: changes, kqueue =>
      let made := kqueue.change change
      let rest := makeChanges changes made.2
      (if containsFlag change.flags evReceipt || made.1 != 0 then receipt change made.1 :: rest.1
        else rest.1, rest.2)

/-- Deliver the events of the filters in `active`, at most `nevents` of them. A filter that is not
there any more does not fire. -/
def deliver (kqueue : KernelQueue) : Nat → List Key → List Kevent × KernelQueue
  | 0, active => ([], { kqueue with active := active })
  | _ + 1, [] => ([], { kqueue with active := [] })
  | nevents + 1, key :: active =>
      match kqueue.knotes key with
      | none => kqueue.deliver (nevents + 1) active
      | some knote =>
          let left := if knote.isOneshot then kqueue.setKnote key none else kqueue
          let rest := left.deliver nevents active
          (knote.kevent key :: rest.1, rest.2)

def kevent (changes : List Kevent) (nevents : Nat) (kqueue : KernelQueue) : Answer × KernelQueue :=
  match kqueue.callError with
  | some errno => (⟨-1, [], errno⟩, kqueue)
  | none =>
      let made := kqueue.makeChanges changes
      if made.1.isEmpty then
        let delivered := made.2.deliver nevents made.2.active
        (⟨Int32.ofNat delivered.1.length, delivered.1, 0⟩, delivered.2)
      else (⟨Int32.ofNat made.1.length, made.1, 0⟩, made.2)

instance : Kernel KernelQueue where
  timeBits := 64
  longBits := 64
  kevent _ changes nevents _ kqueue := kqueue.kevent changes nevents

end KernelQueue

end Gaea.Sys.Kqueue
