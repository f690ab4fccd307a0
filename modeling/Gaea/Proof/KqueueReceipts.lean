import Gaea.Proof.KqueueSpec
import Gaea.Sys.KqueueChanges

/-!
# Registering does not wait

The array of changes is also the array of receipts, and the call has no time limit. Every change
asks for a receipt, so whatever becomes of the changes their receipts fill the array, and the call
has nothing to wait for.
-/

namespace Gaea.Sys.Kqueue

/-! ## The calls -/

/-- The calls of the selector that change filters. -/
inductive ChangeCall where
  | handle (request : Request)
  | setupAwakener (id : Id)
  | wake (id : Id)
  | registerSignals (id : Id) (signals : SignalSet)

namespace ChangeCall

variable {W : Type} [Kernel W]

def perform (selector : Selector) : ChangeCall → W → Except IoError Unit × W
  | .handle request => selector.request request
  | .setupAwakener id => selector.setupAwakener id
  | .wake id => selector.wake id
  | .registerSignals id signals => selector.registerSignals id signals

def changes : ChangeCall → List Kevent
  | .handle request => (filtersOf request).map (changeOf request)
  | .setupAwakener id => [newKevent 0 .user (evAdd ||| evClear ||| evReceipt) id]
  | .wake id => [{ newKevent 0 .user (evAdd ||| evReceipt) id with fflags := noteTrigger }]
  | .registerSignals id signals => signals.toList.map fun signal =>
      newKevent (identOf signal.intoRaw) .signal (evReceipt ||| evAdd) id

def ignoredErrors : ChangeCall → List Int64
  | .handle request => ignoredOf request
  | .setupAwakener _ | .wake _ | .registerSignals _ _ => []

theorem perform_eq (selector : Selector) (call : ChangeCall) (world : W) :
    call.perform selector world
      = keventRegister selector.kq call.changes call.ignoredErrors world := by
  cases call with
  | handle request => exact request_eq selector request world
  | setupAwakener id => rfl
  | wake id => rfl
  | registerSignals id signals => rfl

theorem containsFlag_evReceipt (call : ChangeCall) :
    ∀ change ∈ call.changes, containsFlag change.flags evReceipt = true := by
  cases call with
  | handle request => exact fun change hmem => (isChange_of_mem hmem).receipt
  | setupAwakener id =>
      have hflag : containsFlag (evAdd ||| evClear ||| evReceipt) evReceipt = true := by decide
      intro change hmem
      rw [List.mem_singleton.mp hmem]
      exact hflag
  | wake id =>
      have hflag : containsFlag (evAdd ||| evReceipt) evReceipt = true := by decide
      intro change hmem
      rw [List.mem_singleton.mp hmem]
      exact hflag
  | registerSignals id signals =>
      intro change hmem
      obtain ⟨signal, -, rfl⟩ := List.mem_map.mp hmem
      exact (by decide : containsFlag (evReceipt ||| evAdd) evReceipt = true)

theorem length_changes_le (call : ChangeCall) : call.changes.length ≤ 3 := by
  cases call with
  | handle request =>
      rw [changes, List.length_map]
      exact (filtersOf_sublist request).length_le.trans (by decide)
  | setupAwakener id | wake id => exact (by decide : 1 ≤ 3)
  | registerSignals id signals =>
      rw [changes, List.length_map]
      exact List.length_filter_le _ _

end ChangeCall

/-! ## The receipts -/

/-- The entries that are checked for errors after a call: the array of the changes, with what the
kernel has written into it. -/
def examined {W : Type} [Kernel W] (kq : RawFd) (changes : List Kevent) (world : W) :
    List Kevent :=
  let answer := Kernel.kevent kq changes changes.length none world
  answer.1.written ++ changes.drop answer.1.written.length

theorem keventRegister_eq_checkErrors {W : Type} [Kernel W] (kq : RawFd) (changes : List Kevent)
    (ignoredErrors : List Int64) (world : W) :
    let answer := Kernel.kevent kq changes changes.length none world
    keventRegister kq changes ignoredErrors world
      = (if answer.1.ret = -1 then
          if answer.1.errno = eintr then .ok () else .error ⟨answer.1.errno⟩
        else checkErrors ignoredErrors (examined kq changes world), answer.2) := by
  unfold keventRegister examined
  dsimp only
  split_ifs <;> rfl

namespace ChangeQueue

variable {queue : ChangeQueue} {changes : List Kevent}

theorem receipts_eq (hreceipt : ∀ change ∈ changes, containsFlag change.flags evReceipt = true) :
    queue.receipts changes
      = changes.map fun change => KernelQueue.receipt change (queue.outcome change) := by
  have hall : changes.filter (fun change =>
      containsFlag change.flags evReceipt || queue.outcome change != 0) = changes := by
    rw [List.filter_eq_self]
    intro change hmem
    rw [hreceipt change hmem, Bool.true_or]
  rw [receipts, hall]

/-- With a receipt for every change there is nothing to wait for. -/
theorem kevent_eq (hcall : queue.callError = none)
    (hreceipt : ∀ change ∈ changes, containsFlag change.flags evReceipt = true) :
    queue.kevent changes changes.length
      = (⟨Int32.ofNat changes.length,
          changes.map fun change => KernelQueue.receipt change (queue.outcome change), 0⟩,
        queue.makeChanges changes) := by
  have hwait : ((queue.receipts changes).isEmpty && decide (0 < changes.length)) = false := by
    rw [receipts_eq hreceipt]
    cases changes <;> rfl
  simp only [kevent, hcall, hwait, Bool.false_eq_true, if_false]
  rw [receipts_eq hreceipt, List.length_map]

theorem makeChanges_rest (queue : ChangeQueue) (changes : List Kevent) :
    queue.makeChanges changes = { queue with knotes := (queue.makeChanges changes).knotes } := by
  induction changes generalizing queue with
  | nil => rfl
  | cons first changes ih =>
      have hfirst : queue.change first = { queue with knotes := (queue.change first).knotes } := by
        unfold change
        split_ifs <;> rfl
      rw [makeChanges, List.foldl_cons, ← makeChanges, ih, hfirst]

@[simp]
theorem pending_makeChanges (queue : ChangeQueue) (changes : List Kevent) :
    (queue.makeChanges changes).pending = queue.pending := by
  rw [makeChanges_rest]

@[simp]
theorem waited_makeChanges (queue : ChangeQueue) (changes : List Kevent) :
    (queue.makeChanges changes).waited = queue.waited := by
  rw [makeChanges_rest]

theorem keventRegister_of_receipts (hcall : queue.callError = none)
    (hreceipt : ∀ change ∈ changes, containsFlag change.flags evReceipt = true)
    (hlen : changes.length < 2 ^ 31) (kq : RawFd) (ignoredErrors : List Int64) :
    examined kq changes queue
        = (changes.map fun change => KernelQueue.receipt change (queue.outcome change))
      ∧ keventRegister kq changes ignoredErrors queue
        = (checkErrors ignoredErrors (examined kq changes queue), queue.makeChanges changes) := by
  have hkevent : Kernel.kevent kq changes changes.length none queue = _ :=
    kevent_eq hcall hreceipt
  constructor
  · rw [examined, hkevent]
    simp
  · rw [keventRegister_eq_checkErrors]
    simp only [hkevent]
    rw [if_neg (ofNat_ne_neg_one hlen)]

theorem keventRegister_of_callError {errno : Int32} (hcall : queue.callError = some errno)
    (kq : RawFd) (ignoredErrors : List Int64) :
    keventRegister kq changes ignoredErrors queue
      = (if errno = eintr then .ok () else .error ⟨errno⟩,
        if errno = eintr then queue.makeChanges changes else queue) := by
  have hkevent : queue.kevent changes changes.length
      = (⟨-1, [], errno⟩, if errno = eintr then queue.makeChanges changes else queue) := by
    rw [kevent, hcall]
  simp only [keventRegister, Kernel.kevent, hkevent, if_true]

end ChangeQueue

/-- **Registering does not wait.** None of the calls that change filters waits for events or takes
one, whichever changes fail. What is checked for errors are the receipts of the changes. -/
theorem changes_do_not_wait (selector : Selector) (call : ChangeCall) (queue : ChangeQueue) :
    (call.perform selector queue).2.waited = queue.waited
    ∧ (call.perform selector queue).2.pending = queue.pending
    ∧ (queue.callError = none →
      (call.perform selector queue).1
          = checkErrors call.ignoredErrors (examined selector.kq call.changes queue)
        ∧ examined selector.kq call.changes queue
          = call.changes.map fun change => KernelQueue.receipt change (queue.outcome change)) := by
  have hlen : call.changes.length < 2 ^ 31 := call.length_changes_le.trans_lt (by decide)
  rw [call.perform_eq]
  cases hcall : queue.callError with
  | none =>
      obtain ⟨hexamined, hregister⟩ := ChangeQueue.keventRegister_of_receipts hcall
        call.containsFlag_evReceipt hlen selector.kq call.ignoredErrors
      rw [hregister]
      exact ⟨queue.waited_makeChanges _, queue.pending_makeChanges _, fun _ => ⟨rfl, hexamined⟩⟩
  | some errno =>
      rw [ChangeQueue.keventRegister_of_callError hcall]
      refine ⟨?_, ?_, nofun⟩
      · dsimp only
        split_ifs <;> simp
      · dsimp only
        split_ifs <;> simp

end Gaea.Sys.Kqueue
