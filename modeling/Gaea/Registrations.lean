import Gaea.Os
import Mathlib.Logic.Function.Basic

/-!
# Registrations

What the users of `OsQueue` are told about registering: a handle is registered under an id, with
interests and options, until it is deregistered, and a `reregister` fully overrides what was there.
The selectors are compared with this map.
-/

namespace Gaea

structure Registration where
  id : Id
  interests : Interests
  opt : RegisterOption
deriving DecidableEq

/-- A successful call to register, reregister or deregister a handle. -/
inductive Request where
  | register (fd : RawFd) (registration : Registration)
  | reregister (fd : RawFd) (registration : Registration)
  | deregister (fd : RawFd)
deriving DecidableEq

abbrev Registrations := RawFd → Option Registration

namespace Registrations

def empty : Registrations := fun _ => none

def apply (registrations : Registrations) : Request → Registrations
  | .register fd registration => Function.update registrations fd (some registration)
  | .reregister fd registration => Function.update registrations fd (some registration)
  | .deregister fd => Function.update registrations fd none

end Registrations

end Gaea
