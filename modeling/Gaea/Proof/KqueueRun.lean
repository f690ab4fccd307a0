import Gaea.Library.Run
import Gaea.Proof.KqueueSpec

/-!
# Runs of the kqueue selector

Requests and polls interleave with an environment that decides which filters fire and in what order,
and which changes and calls the kernel is going to refuse.
-/

namespace Gaea.Sys.Kqueue

open Transition

/-- The kqueue, the handles that are registered, and the registration that last succeeded for each
handle, whether or not the handle has been deregistered since. -/
structure System where
  kernel : KernelQueue
  registrations : Registrations
  last : Registrations

namespace System

def new : System := ⟨KernelQueue.empty, Registrations.empty, Registrations.empty⟩

def remember (last : Registrations) : Request → Registrations
  | .deregister _ => last
  | request => last.apply request

/-- Only requests that succeed leave a trace outside the kernel. -/
def after (s : System) (request : Request) (answer : Except IoError Unit × KernelQueue) : System :=
  match answer.1 with
  | .error _ => { s with kernel := answer.2 }
  | .ok () =>
      { kernel := answer.2
        registrations := s.registrations.apply request
        last := remember s.last request }

@[simp] theorem kernel_after (s : System) (request : Request)
    (answer : Except IoError Unit × KernelQueue) : (s.after request answer).kernel = answer.2 := by
  unfold after
  split <;> rfl

theorem last_after (s : System) (request : Request) (answer : Except IoError Unit × KernelQueue) :
    (s.after request answer).last
      = if answer.1 = .ok () then remember s.last request else s.last := by
  unfold after
  cases answer.1 with
  | error errno => simp
  | ok => simp

theorem remember_of_ne {fd : RawFd} {request : Request} (hfd : fd ≠ fdOf request)
    (last : Registrations) : remember last request fd = last fd := by
  cases request with
  | register fd' registration | reregister fd' registration => exact Function.update_of_ne hfd _ _
  | deregister fd' => rfl

end System

inductive Label where
  | request (request : Request) (result : Except IoError Unit)
  /-- What the kernel has delivered, and the events that were added to the sink. -/
  | poll (delivered : List Kevent) (handed : List Event)
  | environment

def Label.registers (fd : RawFd) : Label → Bool
  | .request (.register fd' _) (.ok ()) | .request (.reregister fd' _) (.ok ()) => fd' == fd
  | _ => false

inductive Step (selector : Selector) : System → Label → System → Prop where
  | request (s : System) (request : Request) :
      Step selector s (.request request (selector.request request s.kernel).1)
        (s.after request (selector.request request s.kernel))
  | poll {ES : Type} [Sink ES] (s : System) (sink : ES) (timeout : Option Duration) :
      Step selector s
        (.poll (taken s.kernel sink)
          (selector.select (⟨sink, []⟩ : Tap ES) timeout s.kernel).1.log)
        { s with kernel := (selector.select (⟨sink, []⟩ : Tap ES) timeout s.kernel).2.1 }
  | environment (s : System) (kernel : KernelQueue) (hknotes : kernel.knotes = s.kernel.knotes) :
      Step selector s .environment { s with kernel }

theorem Label.registers_register (fd : RawFd) (registration : Registration) :
    (Label.request (.register fd registration) (.ok ())).registers
      (fdOf (.register fd registration)) = true :=
  beq_self_eq_true fd

theorem Label.registers_reregister (fd : RawFd) (registration : Registration) :
    (Label.request (.reregister fd registration) (.ok ())).registers
      (fdOf (.reregister fd registration)) = true :=
  beq_self_eq_true fd

theorem Label.registers_of_ne {fd : RawFd} {request : Request} (hfd : fd ≠ fdOf request)
    (result : Except IoError Unit) : (Label.request request result).registers fd = false := by
  cases result with
  | error errno => cases request <;> rfl
  | ok =>
      cases request with
      | register fd' registration | reregister fd' registration =>
          exact beq_eq_false_iff_ne.mpr (Ne.symm hfd)
      | deregister fd' => rfl

def firingsIn (key : Key) (labels : List Label) : Nat :=
  (labels.map fun
    | .poll delivered _ => firings key delivered
    | _ => 0).sum

theorem firingsIn_snoc (key : Key) (labels : List Label) (label : Label) :
    firingsIn key (labels ++ [label]) = firingsIn key labels + firingsIn key [label] := by
  simp [firingsIn]

/-- How often a filter of a handle has fired since the handle was last registered. -/
def firingsSince (fd : RawFd) (filter : Filter) (labels : List Label) : Nat :=
  firingsIn (identOf fd, filter) (since (Label.registers fd) labels)

theorem firingsSince_of_registers {fd : RawFd} {label : Label} (labels : List Label)
    (hregisters : label.registers fd = true) (filter : Filter) :
    firingsSince fd filter (labels ++ [label]) = 0 := by
  rw [firingsSince, since_snoc_of_pos labels hregisters]
  rfl

theorem firingsSince_snoc {fd : RawFd} {label : Label} (labels : List Label)
    (hregisters : label.registers fd = false) (filter : Filter) :
    firingsSince fd filter (labels ++ [label])
      = firingsSince fd filter labels + firingsIn (identOf fd, filter) [label] := by
  rw [firingsSince, since_snoc_of_neg labels hregisters, firingsIn_snoc, firingsSince]

/-! ## What a request does to one handle -/

section Request

variable {kqueue : KernelQueue} {request : Request}

theorem knotes_request_unchanged {key : Key}
    (hkey : ∀ filter ∈ filtersOf request, (identOf (fdOf request), filter) ≠ key)
    (selector : Selector) :
    (selector.request request kqueue).2.knotes key = kqueue.knotes key := by
  cases hcall : kqueue.callError with
  | some errno => rw [request_eq, keventRegister_of_callError hcall]
  | none => exact (served_request hcall selector request).unchanged key hkey

theorem knotes_request_of_ne {fd : RawFd} (hfd : fd ≠ fdOf request) (selector : Selector)
    (filter : Filter) :
    (selector.request request kqueue).2.knotes (identOf fd, filter)
      = kqueue.knotes (identOf fd, filter) := by
  apply knotes_request_unchanged
  intro filter' _ heq
  exact hfd (identOf_injective (Prod.mk.inj heq).1).symm

theorem knotes_request_of_notMem {filter : Filter} (hmem : filter ∉ filtersOf request)
    (selector : Selector) :
    (selector.request request kqueue).2.knotes (identOf (fdOf request), filter)
      = kqueue.knotes (identOf (fdOf request), filter) := by
  apply knotes_request_unchanged
  intro filter' hmem' heq
  exact hmem ((Prod.mk.inj heq).2 ▸ hmem')

theorem wanted_of_mem_filtersOf_register {fd : RawFd} {registration : Registration}
    {filter : Filter} (hmem : filter ∈ filtersOf (.register fd registration)) :
    wanted registration.interests filter = true :=
  (List.mem_filter.mp hmem).2

end Request

end Gaea.Sys.Kqueue
