import Gaea.Event

/-!
# The operating system queue

`OsQueue` is a source backed by the selector of the operating system. Handles are registered with
the selector under interests and options.
-/

namespace Gaea

abbrev RawFd := Int32

structure IoError where
  rawOsError : Int32
deriving DecidableEq, Repr

/-- Interests used in registering: readable, writable or both, but never neither. -/
structure Interests where
  bits : UInt8
  valid : bits = 1 ∨ bits = 2 ∨ bits = 3
deriving DecidableEq

namespace Interests

def readable : Interests := ⟨1, .inl rfl⟩

def writable : Interests := ⟨(1 : UInt8) <<< 1, .inr (.inl rfl)⟩

def both : Interests := ⟨readable.bits ||| writable.bits, .inr (.inr rfl)⟩

def isReadable (self : Interests) : Bool := self.bits &&& readable.bits != 0

def isWritable (self : Interests) : Bool := self.bits &&& writable.bits != 0

instance : OrOp Interests where
  or left right := ⟨left.bits ||| right.bits, by
    obtain ⟨_, rfl | rfl | rfl⟩ := left <;> obtain ⟨_, rfl | rfl | rfl⟩ := right <;> decide⟩

theorem isReadable_or_isWritable (self : Interests) :
    self.isReadable = true ∨ self.isWritable = true := by
  obtain ⟨_, rfl | rfl | rfl⟩ := self <;> decide

end Interests

/-- How a handle is registered: edge or level triggered, for one event or for all of them. -/
structure RegisterOption where
  bits : UInt8
deriving DecidableEq, Repr

namespace RegisterOption

def level : RegisterOption := ⟨0⟩

def edge : RegisterOption := ⟨1⟩

def oneshot : RegisterOption := ⟨(1 : UInt8) <<< 1⟩

def isEdge (self : RegisterOption) : Bool := self.bits &&& edge.bits != 0

def isLevel (self : RegisterOption) : Bool := !self.isEdge

def isOneshot (self : RegisterOption) : Bool := self.bits &&& oneshot.bits != 0

instance : OrOp RegisterOption := ⟨fun left right => ⟨left.bits ||| right.bits⟩⟩

end RegisterOption

/-! ## The queue -/

def Sys.eventsCap : Nat := 128

/-- A number of entries is not mistaken for a failure. -/
theorem Sys.ofNat_ne_neg_one {n : Nat} (hn : n < 2 ^ 31) : Int32.ofNat n ≠ -1 := by
  intro heq
  have hn := Int32.toInt_ofNat_of_lt hn
  rw [heq] at hn
  have hminus : (-1 : Int32).toInt = -1 := by decide
  omega

theorem Sys.ofNat_ne_zero {n : Nat} (hn : n < 2 ^ 31) (hpos : n ≠ 0) : Int32.ofNat n ≠ 0 := by
  intro hzero
  have hn := Int32.toNatClampNeg_ofNat_of_lt hn
  rw [hzero] at hn
  exact hpos hn.symm

/-- The array that a call which waits for events writes its entries to, from the start. It is not
initialised, so the other slots hold nothing. -/
def Sys.eventsArray {Entry : Type} (written : List Entry) : List (Option Entry) :=
  (written.map some ++ List.replicate eventsCap none).take eventsCap

/-- The slots of the array that are read when the call has returned `n`. -/
def Sys.readSlots {Entry : Type} (written : List Entry) (n : Int32) : List (Option Entry) :=
  (eventsArray written).take n.toNatClampNeg

theorem Sys.readSlots_eq {Entry : Type} {written : List Entry} (h : written.length ≤ eventsCap) :
    readSlots written (Int32.ofNat written.length) = written.map some := by
  have hlt : written.length < 2 ^ 31 := h.trans_lt (by decide)
  rw [readSlots, eventsArray, Int32.toNatClampNeg_ofNat_of_lt hlt, List.take_take,
    Nat.min_eq_left h]
  exact List.take_left' (List.length_map some)

/-- How a selector takes the return value of a call that has not failed. -/
theorem Sys.take_written {α β : Type} {written : List α} (h : written.length ≤ eventsCap)
    (failed quiet : β) (read : List (Option α) → β) :
    (if Int32.ofNat written.length = -1 then failed
      else if Int32.ofNat written.length = 0 then quiet
      else read (readSlots written (Int32.ofNat written.length)))
      = if written = [] then quiet else read (written.map some) := by
  have hlt : written.length < 2 ^ 31 := h.trans_lt (by decide)
  rw [if_neg (ofNat_ne_neg_one hlt), readSlots_eq h]
  by_cases hnil : written = []
  · rw [if_pos hnil, if_pos (by rw [hnil]; rfl)]
  · rw [if_neg hnil, if_neg (ofNat_ne_zero hlt (mt List.eq_nil_of_length_eq_zero hnil))]

class SystemSelector (Selector W : Type) where
  select {ES : Type} [Sink ES] (selector : Selector) (sink : ES) (timeout : Option Duration)
    (world : W) : ES × W × Except IoError Unit

class FromIoError (E : Type) where
  fromIoError : IoError → E

instance : FromIoError IoError := ⟨id⟩

structure OsQueue (Selector : Type) where
  selector : Selector
deriving DecidableEq

namespace OsQueue

variable {Selector ES E W : Type} [Sink ES] [SystemSelector Selector W] [FromIoError E]

def blockingPoll (queue : OsQueue Selector) (sink : ES) (timeout : Option Duration) (world : W) :
    Polled (OsQueue Selector) ES E W :=
  let selected := SystemSelector.select queue.selector sink timeout world
  ⟨queue, selected.1, selected.2.1, selected.2.2.mapError FromIoError.fromIoError⟩

/-- Whether an event is available cannot be told without a system call, so `max_timeout` gives no
bound. -/
instance : Source (OsQueue Selector) ES E W where
  maxTimeout _ world := (none, world)
  poll queue sink world := queue.blockingPoll sink (some Duration.zero) world
  blockingPoll := blockingPoll

end OsQueue

end Gaea
