import Gaea.Os
import Mathlib.Data.List.Basic

/-!
# The epoll selector

The selector of Linux and Android. A registration is an events mask and a `u64` that the kernel
hands back with every event, and which holds the id.
-/

namespace Gaea.Sys.Epoll

def epollIn : UInt32 := 0x1
def epollPri : UInt32 := 0x2
def epollOut : UInt32 := 0x4
def epollErr : UInt32 := 0x8
def epollHup : UInt32 := 0x10
def epollRdHup : UInt32 := 0x2000
def epollOneshot : UInt32 := (1 : UInt32) <<< 30
def epollEt : UInt32 := (1 : UInt32) <<< 31

structure EpollEvent where
  events : UInt32
  u64 : UInt64
deriving DecidableEq, Repr

inductive CtlOp where
  | add
  | mod
  | del
deriving DecidableEq, Repr

/-- What `epoll_wait` leaves behind: its return value, the entries it has written from the start of
the array, and the error number when it has failed. -/
structure Wait where
  ret : Int32
  written : List EpollEvent
  errno : Int32
deriving DecidableEq

/-- The system calls of the selector. `epoll_ctl` gives its return value and the error number. -/
class Kernel (W : Type) where
  epollWait (epfd : RawFd) (maxevents timeout : Int32) (world : W) : Wait × W
  epollCtl (epfd : RawFd) (op : CtlOp) (fd : RawFd) (event : Option EpollEvent) (world : W) :
    (Int32 × Int32) × W

/-- Convert a `Duration` to milliseconds, at most 24 hours of them. -/
def durationToMillis (duration : Duration) : Int32 :=
  Int32.ofNat (min duration.asMillis (24 * 60 * 60 * 1000))

def containsFlag (flags flag : UInt32) : Bool := flags &&& flag != 0

def epEventToEvent (epEvent : EpollEvent) : Event :=
  let readiness := Ready.empty
  let readiness :=
    if containsFlag epEvent.events (epollIn ||| epollPri) then readiness ||| Ready.readable
    else readiness
  let readiness :=
    if containsFlag epEvent.events epollOut then readiness ||| Ready.writable else readiness
  let readiness :=
    if containsFlag epEvent.events epollErr then readiness ||| Ready.error else readiness
  let readiness :=
    if containsFlag epEvent.events (epollRdHup ||| epollHup) then readiness ||| Ready.hup
    else readiness
  ⟨⟨epEvent.u64⟩, readiness⟩

/-- What a slot that has not been written holds is not known: the zeros stand for anything. -/
def slotToEvent (slot : Option EpollEvent) : Event := epEventToEvent (slot.getD ⟨0, 0⟩)

theorem map_slotToEvent (written : List EpollEvent) :
    (written.map some).map slotToEvent = written.map epEventToEvent := by
  rw [List.map_map]
  rfl

def toEpollEvents (interests : Interests) (opt : RegisterOption) : UInt32 :=
  let events := epollPri ||| epollRdHup
  let events := if interests.isReadable then events ||| epollIn else events
  let events := if interests.isWritable then events ||| epollOut else events
  -- level is the default
  let events := if opt.isEdge then events ||| epollEt else events
  if opt.isOneshot then events ||| epollOneshot else events

def newEpollEvent (interests : Interests) (opt : RegisterOption) (id : Id) : EpollEvent :=
  ⟨toEpollEvents interests opt, id.val⟩

structure Selector where
  epfd : RawFd
deriving DecidableEq

variable {W : Type} [Kernel W]

def epollCtl (epfd : RawFd) (op : CtlOp) (fd : RawFd) (event : Option EpollEvent) (world : W) :
    Except IoError Unit × W :=
  let answer := Kernel.epollCtl epfd op fd event world
  (if answer.1.1 = -1 then .error ⟨answer.1.2⟩ else .ok (), answer.2)

namespace Selector

/-- epoll cannot deal with event arrays of capacity 0, so without room nothing is asked of it. -/
def select {ES : Type} [Sink ES] (selector : Selector) (sink : ES) (timeout : Option Duration)
    (world : W) : ES × W × Except IoError Unit :=
  let cap := Int32.ofNat ((Sink.capacityLeft sink).min eventsCap)
  if cap = 0 then (sink, world, .ok ())
  else
    let timeoutMs := (timeout.map durationToMillis).getD (-1)
    let answer := Kernel.epollWait selector.epfd cap timeoutMs world
    let n := answer.1.ret
    if n = -1 then (sink, answer.2, .error ⟨answer.1.errno⟩)
    -- reached the time limit, no events are pulled
    else if n = 0 then (sink, answer.2, .ok ())
    else
      (Sink.extend sink ((readSlots answer.1.written n).map slotToEvent), answer.2, .ok ())

def register (selector : Selector) (fd : RawFd) (id : Id) (interests : Interests)
    (opt : RegisterOption) (world : W) : Except IoError Unit × W :=
  epollCtl selector.epfd .add fd (some (newEpollEvent interests opt id)) world

def reregister (selector : Selector) (fd : RawFd) (id : Id) (interests : Interests)
    (opt : RegisterOption) (world : W) : Except IoError Unit × W :=
  epollCtl selector.epfd .mod fd (some (newEpollEvent interests opt id)) world

def deregister (selector : Selector) (fd : RawFd) (world : W) : Except IoError Unit × W :=
  epollCtl selector.epfd .del fd none world

instance : SystemSelector Selector W := ⟨select⟩

end Selector

/-! ## The arguments of `epoll_wait` -/

theorem toInt_durationToMillis_eq (d : Duration) :
    (durationToMillis d).toInt = (min d.asMillis (24 * 60 * 60 * 1000) : Nat) :=
  Int32.toInt_ofNat_of_lt ((min_le_right _ _).trans_lt (by decide))

theorem min_eventsCap_ne_zero {capacity : Capacity} (hroom : capacity ≠ .limited 0) :
    Int32.ofNat (capacity.min eventsCap) ≠ 0 := by
  apply ofNat_ne_zero ((capacity.min_le eventsCap).trans_lt (by decide))
  intro hzero
  apply hroom
  cases capacity with
  | limited left =>
      have hmin : min left eventsCap = 0 := hzero
      unfold eventsCap at hmin
      congr
      omega
  | growable => cases hzero

theorem select_of_no_room {ES : Type} [Sink ES] {sink : ES} (selector : Selector)
    (timeout : Option Duration) (world : W) (hroom : Sink.capacityLeft sink = .limited 0) :
    selector.select sink timeout world = (sink, world, .ok ()) := by
  have hcap : Int32.ofNat ((Sink.capacityLeft sink).min eventsCap) = 0 := by
    rw [hroom]
    rfl
  unfold Selector.select
  exact if_pos hcap

end Gaea.Sys.Epoll
