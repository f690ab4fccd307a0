import Gaea.Registrations
import Gaea.Signals
import Mathlib.Data.List.Basic

/-!
# The kqueue selector

The selector of the BSDs and macOS. A registration is up to two filters of a file descriptor, and
one call of `kevent` makes a list of changes to the filters. The array of changes is also the array
that the receipts are written to, one for each change.
-/

namespace Gaea.Sys.Kqueue

inductive Filter where
  | read
  | write
  | signal
  | user
deriving DecidableEq, Repr

def evAdd : UInt32 := 0x1
def evDelete : UInt32 := 0x2
def evOneshot : UInt32 := 0x10
def evClear : UInt32 := 0x20
def evReceipt : UInt32 := 0x40
def evError : UInt32 := 0x4000
def evEof : UInt32 := 0x8000

/-- Cause an event of a user filter. -/
def noteTrigger : UInt32 := 0x01000000

def enoent : Int64 := 2

def eintr : Int32 := 4

structure Kevent where
  ident : UInt64
  filter : Filter
  flags : UInt32
  fflags : UInt32
  data : Int64
  udata : UInt64
deriving DecidableEq, Repr

/-- A `timespec` on a target with the given widths of `time_t` and of C's `long`. -/
structure Timespec (timeBits longBits : Nat) where
  tvSec : BitVec timeBits
  tvNsec : BitVec longBits
deriving DecidableEq

/-- What `kevent` leaves behind: its return value, the entries it has written from the start of the
array, and the error number when it has failed. -/
structure Answer where
  ret : Int32
  written : List Kevent
  errno : Int32
deriving DecidableEq

/-- The system call of the selector, on a target with the given widths. -/
class Kernel (W : Type) where
  timeBits : Nat
  longBits : Nat
  kevent (kq : RawFd) (changes : List Kevent) (nevents : Nat)
    (timeout : Option (Timespec timeBits longBits)) (world : W) : Answer × W

/-- Create a `timespec` from a duration. -/
def timespecFromDuration (timeBits longBits : Nat) (duration : Duration) :
    Timespec timeBits longBits where
  tvSec := BitVec.ofNat timeBits (min duration.asSecs (2 ^ (timeBits - 1) - 1))
  tvNsec := (BitVec.ofNat 32 duration.subsecNanos).signExtend longBits

def containsFlag (flags flag : UInt32) : Bool := flags &&& flag != 0

def keventToEvent (kevent : Kevent) : Event :=
  let readiness := Ready.empty
  let readiness :=
    if containsFlag kevent.flags evError then readiness ||| Ready.error else readiness
  let readiness :=
    if containsFlag kevent.flags evEof then
      let readiness := readiness ||| Ready.hup
      if kevent.fflags != 0 then readiness ||| Ready.error else readiness
    else readiness
  let readiness :=
    match kevent.filter with
    | .read => readiness ||| Ready.readable
    | .write => readiness ||| Ready.writable
    -- where `eventfd` or a pipe backs the awakener it is readable, so it is here as well
    | .user => readiness ||| Ready.readable
    | .signal => readiness
  ⟨⟨kevent.udata⟩, readiness⟩

/-- What a slot that has not been written holds is not known: the zeros stand for anything. -/
def slotToEvent (slot : Option Kevent) : Event := keventToEvent (slot.getD ⟨0, .read, 0, 0, 0, 0⟩)

theorem map_slotToEvent (written : List Kevent) :
    (written.map some).map slotToEvent = written.map keventToEvent := by
  rw [List.map_map]
  rfl

def optToFlags (opt : RegisterOption) : UInt32 :=
  let flags := evReceipt
  -- level is the default
  let flags := if opt.isEdge then flags ||| evClear else flags
  if opt.isOneshot then flags ||| evOneshot else flags

def newKevent (ident : UInt64) (filter : Filter) (flags : UInt32) (id : Id) : Kevent :=
  ⟨ident, filter, flags, 0, 0, id.val⟩

def identOf (fd : RawFd) : UInt64 := fd.toInt64.toUInt64

/-- Check all events for possible errors, it returns the first error found. -/
def checkErrors (ignoredErrors : List Int64) : List Kevent → Except IoError Unit
  | [] => .ok ()
  | event :: events =>
      if containsFlag event.flags evError && event.data != 0
          && !ignoredErrors.contains event.data then
        .error ⟨event.data.toInt32⟩
      else checkErrors ignoredErrors events

structure Selector where
  kq : RawFd
deriving DecidableEq

variable {W : Type} [Kernel W]

/-- Make the changes. The receipts replace the changes in their array, from its start. -/
def keventRegister (kq : RawFd) (changes : List Kevent) (ignoredErrors : List Int64) (world : W) :
    Except IoError Unit × W :=
  let answer := Kernel.kevent kq changes changes.length none world
  if answer.1.ret = -1 then
    -- all changes have been applied when the call is interrupted
    (if answer.1.errno = eintr then .ok () else .error ⟨answer.1.errno⟩, answer.2)
  else
    (checkErrors ignoredErrors
      (answer.1.written ++ changes.drop answer.1.written.length), answer.2)

namespace Selector

def select {ES : Type} [Sink ES] (selector : Selector) (sink : ES) (timeout : Option Duration)
    (world : W) : ES × W × Except IoError Unit :=
  let cap := (Sink.capacityLeft sink).min eventsCap
  let timespec := timeout.map (timespecFromDuration (Kernel.timeBits W) (Kernel.longBits W))
  let answer := Kernel.kevent selector.kq [] cap timespec world
  let n := answer.1.ret
  if n = -1 then (sink, answer.2, .error ⟨answer.1.errno⟩)
  -- reached the time limit, no events are pulled
  else if n = 0 then (sink, answer.2, .ok ())
  else
    (Sink.extend sink ((readSlots answer.1.written n).map slotToEvent), answer.2, .ok ())

def registerChanges (fd : RawFd) (id : Id) (interests : Interests) (opt : RegisterOption) :
    List Kevent :=
  let flags := optToFlags opt ||| evAdd
  (if interests.isWritable then [newKevent (identOf fd) .write flags id] else [])
    ++ if interests.isReadable then [newKevent (identOf fd) .read flags id] else []

def register (selector : Selector) (fd : RawFd) (id : Id) (interests : Interests)
    (opt : RegisterOption) (world : W) : Except IoError Unit × W :=
  keventRegister selector.kq (registerChanges fd id interests opt) [] world

def reregisterChanges (fd : RawFd) (id : Id) (interests : Interests) (opt : RegisterOption) :
    List Kevent :=
  let flags := optToFlags opt
  let writeFlags := if interests.isWritable then flags ||| evAdd else flags ||| evDelete
  let readFlags := if interests.isReadable then flags ||| evAdd else flags ||| evDelete
  [newKevent (identOf fd) .write writeFlags id, newKevent (identOf fd) .read readFlags id]

def reregister (selector : Selector) (fd : RawFd) (id : Id) (interests : Interests)
    (opt : RegisterOption) (world : W) : Except IoError Unit × W :=
  keventRegister selector.kq (reregisterChanges fd id interests opt) [enoent] world

def deregisterChanges (fd : RawFd) : List Kevent :=
  let flags := evDelete ||| evReceipt
  [newKevent (identOf fd) .write flags ⟨-1⟩, newKevent (identOf fd) .read flags ⟨-1⟩]

def deregister (selector : Selector) (fd : RawFd) (world : W) : Except IoError Unit × W :=
  keventRegister selector.kq (deregisterChanges fd) [enoent] world

/-- Accept user space notifications, for the awakener. -/
def setupAwakener (selector : Selector) (id : Id) (world : W) : Except IoError Unit × W :=
  keventRegister selector.kq [newKevent 0 .user (evAdd ||| evClear ||| evReceipt) id] [] world

/-- Used by the awakener: adding the filter once more triggers it. -/
def wake (selector : Selector) (id : Id) (world : W) : Except IoError Unit × W :=
  let kevent := { newKevent 0 .user (evAdd ||| evReceipt) id with fflags := noteTrigger }
  keventRegister selector.kq [kevent] [] world

/-- One filter for each signal. -/
def registerSignals (selector : Selector) (id : Id) (signals : SignalSet) (world : W) :
    Except IoError Unit × W :=
  let changes := signals.toList.map fun signal =>
    newKevent (identOf signal.intoRaw) .signal (evReceipt ||| evAdd) id
  keventRegister selector.kq changes [] world

instance : SystemSelector Selector W := ⟨select⟩

end Selector

end Gaea.Sys.Kqueue
