import Gaea.Os

/-!
# Signals

The signals that a process can be notified of, and the sets of them.
-/

namespace Gaea

inductive Signal where
  | interrupt
  | terminate
  | quit
deriving DecidableEq, Repr

/-- Convert the signal into a raw Unix signal: `SIGINT`, `SIGQUIT` or `SIGTERM`. -/
def Signal.intoRaw : Signal → Int32
  | .interrupt => 2
  | .quit => 3
  | .terminate => 15

/-- Convert a raw Unix signal into a signal. -/
def Signal.fromRaw (rawSignal : Int32) : Option Signal :=
  if rawSignal = 2 then some .interrupt
  else if rawSignal = 3 then some .quit
  else if rawSignal = 15 then some .terminate
  else none

structure SignalSet where
  bits : UInt8
deriving DecidableEq, Repr

namespace SignalSet

def interrupt : UInt8 := 1
def quit : UInt8 := (1 : UInt8) <<< 1
def terminate : UInt8 := (1 : UInt8) <<< 2

def ofSignal : Signal → SignalSet
  | .interrupt => ⟨interrupt⟩
  | .quit => ⟨quit⟩
  | .terminate => ⟨terminate⟩

def empty : SignalSet := ⟨0⟩

def all : SignalSet := ⟨interrupt ||| quit ||| terminate⟩

def size (self : SignalSet) : Nat := self.bits.toBitVec.cpop.toNat

def contains (self other : SignalSet) : Bool := self.bits &&& other.bits == other.bits

/-- The signals of a set, as its iterator takes them: the lowest bit first. -/
def toList (self : SignalSet) : List Signal :=
  [.interrupt, .quit, .terminate].filter fun signal => self.contains (ofSignal signal)

instance : OrOp SignalSet := ⟨fun self rhs => ⟨self.bits ||| rhs.bits⟩⟩

def orSignal (self : SignalSet) (rhs : Signal) : SignalSet := self ||| ofSignal rhs

end SignalSet

def Signal.bitor (self rhs : Signal) : SignalSet := (SignalSet.ofSignal self).orSignal rhs

def Signal.orSet (self : Signal) (rhs : SignalSet) : SignalSet := rhs.orSignal self

/-- The signals of a set that are still to come. -/
structure SignalSetIter where
  set : SignalSet
deriving DecidableEq, Repr

namespace SignalSet

def intoIter (self : SignalSet) : SignalSetIter := ⟨self⟩

end SignalSet

namespace SignalSetIter

def signalAt : Nat → Option Signal
  | 0 => some .interrupt
  | 1 => some .quit
  | 2 => some .terminate
  | _ => none

/-- The lowest bit gives the signal, which is then removed from the set. -/
def next (iter : SignalSetIter) : Option Signal × SignalSetIter :=
  let n := iter.set.bits.toBitVec.ctz.toNat
  match signalAt n with
  | some signal => (some signal, ⟨⟨iter.set.bits &&& ~~~ ((1 : UInt8) <<< UInt8.ofNat n)⟩⟩)
  | none => (none, iter)

def sizeHint (iter : SignalSetIter) : Nat × Option Nat := (iter.set.size, some iter.set.size)

def count (iter : SignalSetIter) : Nat := iter.set.size

def len (iter : SignalSetIter) : Nat := iter.set.size

end SignalSetIter

end Gaea
