import Gaea.Sys.Constructors

/-!
# The user filter of a kqueue

A user filter belongs to no descriptor, and fires when a change of it carries `NOTE_TRIGGER`. With
`EV_CLEAR` among the flags that it was first added with, which it keeps, it has to be triggered
again once its event has been delivered.
-/

namespace Gaea.Sys.Kqueue

structure UserFilter extends Knote where
  triggered : Bool
deriving DecidableEq, Repr

def userKey : Key := (0, .user)

namespace UserFilter

/-- What becomes of a filter whose event has been delivered. -/
def fire (filter : UserFilter) : UserFilter :=
  { filter with triggered := filter.triggered && !containsFlag filter.flags evClear }

end UserFilter

/-- A kqueue as its awakeners see it: the user filter, the other events that are going to be
delivered before and after its event, and how calls are going to end. -/
structure UserQueue where
  filter : Option UserFilter
  ahead : List Kevent
  behind : List Kevent
  others : ∀ kevent ∈ ahead ++ behind, kevent.filter ≠ .user
  /-- The error of a change, zero when it is made. -/
  refuse : Kevent → Int64
  /-- The error of calls that fail as a whole. -/
  callError : Option Int32
  /-- An interruption comes after the changes. -/
  interrupted : callError = some eintr → ∀ change, refuse change = 0

namespace UserQueue

def empty : UserQueue where
  filter := none
  ahead := []
  behind := []
  others := nofun
  refuse _ := 0
  callError := none
  interrupted := nofun

def add (change : Kevent) (filter : Option UserFilter) : UserFilter where
  toKnote := change.added (filter.map UserFilter.toKnote)
  triggered := filter.any UserFilter.triggered || containsFlag change.fflags noteTrigger

def change (queue : UserQueue) (change : Kevent) : UserQueue :=
  if queue.refuse change != 0 || change.key != userKey then queue
  else if containsFlag change.flags evAdd then
    { queue with filter := some (add change queue.filter) }
  else if containsFlag change.flags evDelete then { queue with filter := none }
  else queue

def makeChanges (queue : UserQueue) (changes : List Kevent) : UserQueue :=
  changes.foldl change queue

/-- The receipts of the changes that ask for one, or that fail. -/
def receipts (queue : UserQueue) (changes : List Kevent) : List Kevent :=
  (changes.filter fun change =>
      containsFlag change.flags evReceipt || queue.refuse change != 0).map fun change =>
    KernelQueue.receipt change (queue.refuse change)

def ready (queue : UserQueue) : List Kevent :=
  match queue.filter with
  | some filter => if filter.triggered then [filter.kevent userKey] else []
  | none => []

/-- The filter is reached when there is room for more than the events ahead of it. -/
def deliver (queue : UserQueue) (nevents : Nat) : UserQueue :=
  { queue with
    filter :=
      if queue.ahead.length < nevents then queue.filter.map UserFilter.fire else queue.filter
    ahead := queue.ahead.drop nevents
    behind := queue.behind.drop (nevents - queue.ahead.length - queue.ready.length)
    others := fun kevent hmem => queue.others kevent (by
      rcases List.mem_append.mp hmem with hmem | hmem
      · exact List.mem_append_left _ (List.mem_of_mem_drop hmem)
      · exact List.mem_append_right _ (List.mem_of_mem_drop hmem)) }

def written (queue : UserQueue) (nevents : Nat) : List Kevent :=
  (queue.ahead ++ queue.ready ++ queue.behind).take nevents

def kevent (changes : List Kevent) (nevents : Nat) (queue : UserQueue) : Answer × UserQueue :=
  match queue.callError with
  -- all changes have been made when the call is interrupted, and none when it fails otherwise
  | some errno => (⟨-1, [], errno⟩, if errno = eintr then queue.makeChanges changes else queue)
  | none =>
      let receipts := queue.receipts changes
      let made := queue.makeChanges changes
      if receipts.isEmpty then
        (⟨Int32.ofNat (made.written nevents).length, made.written nevents, 0⟩, made.deliver nevents)
      else (⟨Int32.ofNat receipts.length, receipts, 0⟩, made)

instance : Kernel UserQueue where
  timeBits := 64
  longBits := 64
  kevent _ changes nevents _ queue := queue.kevent changes nevents

end UserQueue

def Awakener.wake {W : Type} [Kernel W] (awakener : Awakener) (world : W) :
    Except IoError Unit × W :=
  awakener.selector.wake awakener.id world

end Gaea.Sys.Kqueue
