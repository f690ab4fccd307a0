import Gaea.Registrations
import Gaea.Sys.EpollTable

/-!
# Deliveries of an epoll instance

An entry reports what becomes of its handle within its mask, and errors and hang-ups. With
`EPOLLONESHOT` it is disabled when it has reported: all but the private bits of its mask are
cleared, and it reports nothing, not even an error, until it is modified.
-/

namespace Gaea.Sys.Epoll

/-- The bits of a mask that are about the entry, not about its handle. -/
def epPrivateBits : UInt32 := epollOneshot ||| epollEt

namespace EpollEvent

def disabled (given : EpollEvent) : EpollEvent :=
  { given with events := given.events &&& epPrivateBits }

def mask (given : EpollEvent) : UInt32 :=
  if given.events &&& ~~~epPrivateBits = 0 then 0 else given.events ||| epollErr ||| epollHup

end EpollEvent

namespace Table

/-- The event of a handle of which `bits` have come true, if its entry is interested. -/
def report (table : Table) (fd : RawFd) (bits : UInt32) : Option (EpollEvent × Table) :=
  (table.entries fd).bind fun given =>
    let events := bits &&& given.mask
    if events = 0 then none
    else
      let left := if containsFlag given.events epollOneshot then given.disabled else given
      some (⟨events, given.u64⟩, ⟨Function.update table.entries fd (some left)⟩)

/-- Deliver the events of the handles in `ready`, at most `maxevents` of them. -/
def deliver (table : Table) :
    Nat → List (RawFd × UInt32) → List EpollEvent × List (RawFd × UInt32) × Table
  | 0, ready => ([], ready, table)
  | _ + 1, [] => ([], [], table)
  | maxevents + 1, (fd, bits) :: ready =>
      match table.report fd bits with
      | none => table.deliver (maxevents + 1) ready
      | some (event, left) =>
          let rest := left.deliver maxevents ready
          (event :: rest.1, rest.2)

end Table

/-- An epoll instance, with what is going to become of its handles. -/
structure Instance where
  table : Table
  ready : List (RawFd × UInt32)
  /-- The error of `epoll_wait`. -/
  waitError : Option Int32

namespace Instance

def empty : Instance := ⟨Table.empty, [], none⟩

def wait (inst : Instance) (maxevents : Nat) : Wait × Instance :=
  match inst.waitError with
  | some errno => (⟨-1, [], errno⟩, inst)
  | none =>
      let delivered := inst.table.deliver maxevents inst.ready
      (⟨Int32.ofNat delivered.1.length, delivered.1, 0⟩,
        { inst with ready := delivered.2.1, table := delivered.2.2 })

instance : Kernel Instance where
  epollWait _ maxevents _ inst := inst.wait maxevents.toNatClampNeg
  epollCtl _ op fd event inst :=
    let answer := inst.table.ctl op fd event
    (answer.1, { inst with table := answer.2 })

end Instance

def Selector.request {W : Type} [Kernel W] (selector : Selector) (request : Request) (world : W) :
    Except IoError Unit × W :=
  match request with
  | .register fd registration =>
      selector.register fd registration.id registration.interests registration.opt world
  | .reregister fd registration =>
      selector.reregister fd registration.id registration.interests registration.opt world
  | .deregister fd => selector.deregister fd world

end Gaea.Sys.Epoll
