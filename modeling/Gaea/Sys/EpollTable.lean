import Gaea.Sys.Epoll
import Mathlib.Logic.Function.Basic

/-!
# An epoll instance

What `epoll_ctl` does to the entries of an epoll instance: one entry a handle, with the mask and the
`u64` it was last given.
-/

namespace Gaea.Sys.Epoll

structure Table where
  entries : RawFd → Option EpollEvent

namespace Table

def empty : Table := ⟨fun _ => none⟩

def eexist : Int32 := 17

def enoent : Int32 := 2

def accepts (table : Table) (op : CtlOp) (fd : RawFd) : Bool :=
  match op with
  | .add => (table.entries fd).isNone
  | .mod | .del => (table.entries fd).isSome

def entry (op : CtlOp) (event : Option EpollEvent) : Option EpollEvent :=
  match op with
  | .add | .mod => event
  | .del => none

def ctl (table : Table) (op : CtlOp) (fd : RawFd) (event : Option EpollEvent) :
    (Int32 × Int32) × Table :=
  if table.accepts op fd then
    ((0, 0), ⟨Function.update table.entries fd (entry op event)⟩)
  else ((-1, if op = .add then eexist else enoent), table)

instance : Kernel Table where
  epollWait _ _ _ table := (⟨0, [], 0⟩, table)
  epollCtl _ op fd event table := table.ctl op fd event

end Table

end Gaea.Sys.Epoll
