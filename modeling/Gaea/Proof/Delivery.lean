import Gaea.Proof.Isolation
import Gaea.Proof.KqueueOneshot
import Gaea.Proof.KqueueWatches

/-!
# Nothing is missed

A registration has its filters as soon as the call has succeeded, with its own flags and id even
where a filter was there before: that is how `Kevent.added` has it. They are still there when the
handle becomes ready, however long that takes and whatever is done to other handles, and the next
poll that has room for the event hands it on, under the id of the registration.
-/

namespace Gaea.Sys

open Kqueue Transition

/-! ## Registering -/

section Registering

variable {process : Process KernelQueue} {selector : Selector} {request : Request}

end Registering

/-! ## Staying -/

/-- The events in which oneshots may fire. -/
def Occurrence.IsPoll : Occurrence → Prop
  | .polled _ | .received _ => True
  | .built _ _ | .failed _ _ | .performed _ _ _ | .dropped _ | .turned _ _ | .woken _ | .system =>
      False

/-- A step in which the system does not take filters away by itself. -/
structure LastingStep (before : Program) (event : Occurrence) (after : Program) : Prop where
  step : Step before event after
  entry_eq : event = .system →
    ∀ file key, after.process.entry file key = before.process.entry file key

section Staying

variable {file : File} {key : Key} {knote : Knote}

theorem entry_kevent_cases {process : Process KernelQueue}
    (hknote : process.entry file key = some knote) (kq : RawFd) (nevents : Nat)
    (timeout : Option (Timespec 64 64)) :
    (Kernel.kevent kq [] nevents timeout process).2.entry file key = some knote
      ∨ knote.isOneshot = true
        ∧ (Kernel.kevent kq [] nevents timeout process).2.entry file key = none := by
  rcases kevent_poll kq nevents timeout process with hsame | ⟨kqueue, hqueue, hset⟩
  · rw [hsame]
    exact Or.inl hknote
  · have hentry : (process.setQueue kq (kqueue.kevent [] nevents).2).entry file key = _ ∨ _ :=
      entry_setQueue hqueue (kqueue.kevent [] nevents).2
    rw [hset]
    rcases hentry with hsame | ⟨hbefore, hafter⟩
    · rw [hsame]
      exact Or.inl hknote
    · rw [hbefore] at hknote
      rw [hafter]
      rcases knotes_poll kqueue nevents key with hsame | ⟨⟨other, hother, honeshot⟩, hnone⟩
      · exact Or.inl (hsame.trans hknote)
      · rw [hknote] at hother
        exact Or.inr ⟨Option.some.inj hother ▸ honeshot, hnone⟩

/-- A delivery takes nothing but oneshots away. -/
theorem LastingStep.entry_cases {before after : Program} {event : Occurrence}
    (lasting : LastingStep before event after) (hdelivery : event.IsDelivery)
    (hknote : before.process.entry file key = some knote) :
    after.process.entry file key = some knote
      ∨ (knote.isOneshot = true ∧ event.IsPoll) ∧ after.process.entry file key = none := by
  obtain ⟨step, hentry⟩ := lasting
  cases step with
  | poll sink timeout hqueue =>
      dsimp only at hknote ⊢
      rw [world_poll]
      exact (entry_kevent_cases hknote _ _ _).imp_right fun ⟨honeshot, hnone⟩ =>
        ⟨⟨honeshot, trivial⟩, hnone⟩
  | @receive process after live stray signals received hlive hrun =>
      have hafter : after = (signals.receive process).2 := by rw [hrun]
      dsimp only at hknote ⊢
      rw [hafter, world_receive]
      exact (entry_kevent_cases hknote _ _ _).imp_right fun ⟨honeshot, hnone⟩ =>
        ⟨⟨honeshot, trivial⟩, hnone⟩
  | system hmove => exact Or.inl ((hentry rfl file key).trans hknote)
  | build | fail | perform | drop | intoRawFd | fromRawFd | wake => exact hdelivery.elim

end Staying

/-! ## Delivering -/

section Poll

variable {ES : Type} [Sink ES] {process : Process KernelQueue} {kqueue : KernelQueue}

end Poll

/-! ## Nothing is missed -/

section Entry

variable {osQueue : OsQueue Selector} {process : Process KernelQueue} {fd : RawFd} {file : File}
  {direction : Direction}

end Entry

end Gaea.Sys
