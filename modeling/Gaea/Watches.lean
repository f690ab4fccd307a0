import Gaea.Library.Traces
import Gaea.Registrations

/-!
# Watched handles

What a program sees of the handles it registers with an `OsQueue`, on any system. A handle is
watched in the directions of its interests until it is deregistered. A report in a direction is
given under the id of the last registration, and disarms that direction if the registration is a
oneshot. Only handles that are not watched can be registered, and only those that are can be
re-registered or deregistered.
-/

namespace Gaea

open Transition

inductive Direction where
  | read
  | write
deriving DecidableEq, Repr

def Interests.includes (interests : Interests) : Direction → Bool
  | .read => interests.isReadable
  | .write => interests.isWritable

/-- Not a oneshot for both directions. -/
def Registration.Plain (registration : Registration) : Prop :=
  registration.opt.isOneshot = true →
    ¬ (registration.interests.isReadable = true ∧ registration.interests.isWritable = true)

/-- The registration that a request asks for. -/
def Request.registration : Request → Option Registration
  | .register _ registration | .reregister _ registration => some registration
  | .deregister _ => none

structure Watch where
  registration : Registration
  armed : Direction → Bool

namespace Watch

def new (registration : Registration) : Watch := ⟨registration, registration.interests.includes⟩

def fire (watch : Watch) (direction : Direction) : Watch :=
  if watch.registration.opt.isOneshot then
    { watch with armed := Function.update watch.armed direction false }
  else watch

def fireIf (reported : Bool) (watch : Watch) (direction : Direction) : Watch :=
  if reported then watch.fire direction else watch

@[simp]
theorem registration_fireIf (reported : Bool) (watch : Watch) (direction : Direction) :
    (watch.fireIf reported direction).registration = watch.registration := by
  cases reported with
  | true =>
      change (watch.fire direction).registration = _
      unfold fire
      split <;> rfl
  | false => rfl

theorem fire_of_repeated {watch : Watch} (h : watch.registration.opt.isOneshot = false)
    (direction : Direction) : watch.fire direction = watch :=
  if_neg (Bool.eq_false_iff.mp h)

theorem fireIf_of_repeated {watch : Watch} (h : watch.registration.opt.isOneshot = false)
    (reported : Bool) (direction : Direction) : watch.fireIf reported direction = watch := by
  cases reported with
  | true => exact fire_of_repeated h direction
  | false => rfl

theorem armed_fireIf_of_ne {direction direction' : Direction} (hne : direction' ≠ direction)
    (reported : Bool) (watch : Watch) :
    (watch.fireIf reported direction).armed direction' = watch.armed direction' := by
  cases reported with
  | true =>
      change (watch.fire direction).armed direction' = _
      unfold fire
      split
      · exact Function.update_of_ne hne _ _
      · rfl
  | false => rfl

end Watch

abbrev Watches := RawFd → Option Watch

inductive Observation where
  | request (request : Request) (result : Except IoError Unit)
  | report (id : Id) (direction : Direction)

namespace Watches

def empty : Watches := fun _ => none

def Allows (watches : Watches) : Request → Prop
  | .register fd _ => watches fd = none
  | .reregister fd _ | .deregister fd => (watches fd).isSome

def apply (watches : Watches) : Request → Watches
  | .register fd registration | .reregister fd registration =>
      Function.update watches fd (some (Watch.new registration))
  | .deregister fd => Function.update watches fd none

def eexist : IoError := ⟨17⟩

def enoent : IoError := ⟨2⟩

def refusal : Request → IoError
  | .register _ _ => eexist
  | .reregister _ _ | .deregister _ => enoent

inductive Step : Watches → Observation → Watches → Prop where
  | accept (watches : Watches) (request : Request) (hallows : watches.Allows request) :
      Step watches (.request request (.ok ())) (watches.apply request)
  | refuse (watches : Watches) (request : Request) (hrefuses : ¬ watches.Allows request) :
      Step watches (.request request (.error (refusal request))) watches
  | report (watches : Watches) (fd : RawFd) (watch : Watch) (direction : Direction)
      (hwatch : watches fd = some watch) (harmed : watch.armed direction = true) :
      Step watches (.report watch.registration.id direction)
        (Function.update watches fd (some (watch.fire direction)))

end Watches

namespace Watches

/-- An event may be seen if the direction it reports is armed. -/
theorem shows_report {watches : Watches} {fd : RawFd} {watch : Watch}
    (hwatch : watches fd = some watch) (direction : Direction) (reported : Bool)
    (harmed : reported = true → watch.armed direction = true) :
    Shows Step List.singleton
      (fun after => after = Function.update watches fd (some (watch.fireIf reported direction)))
      watches (if reported then [.report watch.registration.id direction] else []) := by
  cases reported with
  | true => exact .single (.report watches fd watch direction hwatch (harmed rfl)) rfl
  | false =>
      refine .nil ?_
      rw [Watch.fireIf, if_neg Bool.false_ne_true, ← hwatch, Function.update_eq_self]

end Watches

namespace Observation

/-- No request is refused. -/
def Accepted : Observation → Prop
  | request _ result => result = .ok ()
  | report _ _ => True

/-- No handle is registered as a oneshot for both directions. -/
def Plain : Observation → Prop
  | request asked _ => ∀ registration, asked.registration = some registration → registration.Plain
  | report _ _ => True

end Observation

/-- What is seen of an event: the directions it reports. -/
def Event.reports (event : Event) : List Observation :=
  (if event.readiness.isWritable then [.report event.id .write] else [])
    ++ if event.readiness.isReadable then [.report event.id .read] else []

def Direction.ready : Direction → Ready
  | read => Ready.readable
  | write => Ready.writable

theorem Direction.reports_ready (direction : Direction) (id : Id) :
    Event.reports ⟨id, direction.ready⟩ = [.report id direction] := by
  unfold Event.reports
  dsimp only
  cases direction with
  | read =>
      rw [if_neg (by decide), if_pos (by decide)]
      rfl
  | write =>
      rw [if_pos (by decide), if_neg (by decide)]
      rfl

end Gaea
