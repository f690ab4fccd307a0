import Gaea.Library.Fallible
import Gaea.Os
import Mathlib.Logic.Function.Basic
import Mathlib.Data.Nat.Init
import Mathlib.Order.Basic

/-!
# The process

What the constructors of handles change: the table of open descriptors, the registrations in the
selectors, and the signal mask. A system call that returns `-1` leaves its error in `errno`, and
here it fails with that error.
-/

namespace Gaea.Sys

/-- An open file, which more than one descriptor may be open for. -/
abbrev File := Nat

inductive SocketAddr where
  | v4 (ip : BitVec 32) (port : UInt16)
  | v6 (ip : BitVec 128) (port : UInt16) (flowinfo scopeId : UInt32)
deriving DecidableEq

inductive SocketFamily where
  | inet
  | inet6
deriving DecidableEq

inductive SocketOption where
  | reusePort
  | reuseAddr
deriving DecidableEq

/-- The system calls that do not open a descriptor. -/
inductive Call where
  | setNonblocking (fd : RawFd)
  | setsockopt (fd : RawFd) (name : SocketOption)
  | connect (fd : RawFd) (address : SocketAddr)
  | bind (fd : RawFd) (address : SocketAddr)
  | listen (fd : RawFd) (backlog : Nat)
  | epollCtl (epfd fd : RawFd)
  | kevent (kq : RawFd)
  | sigemptyset
  | sigaddset (signal : Int32)
  | sigprocmask
deriving DecidableEq

/-- How the system is going to answer, and the number that it has for `EINPROGRESS`. -/
structure Answers (Q : Type) where
  /-- The descriptor to open next, which is not open. -/
  alloc : (files : RawFd → Option File) → Except IoError {fd // files fd = none}
  errno : Call → Option Int32
  einprogress : Int32
  newQueue : Q

def firstClosed : (fds : List RawFd) → (files : RawFd → Option File) →
    Except IoError {fd // files fd = none}
  | [], _ => .error ⟨24⟩
  | fd :: fds, files => if h : files fd = none then .ok ⟨fd, h⟩ else firstClosed fds files

/-- The process, with selectors whose state is a `Q`. -/
structure Process (Q : Type) where
  files : RawFd → Option File
  nextFile : File
  files_lt : ∀ fd file, files fd = some file → file < nextFile
  queues : File → Option Q
  /-- The signals that the files made by `signalfd` accept. -/
  sigsets : File → Option (List Int32)
  mask : Int32 → Bool
  answers : Answers Q

abbrev SysM (Q : Type) := Fallible IoError (Process Q)

variable {Q : Type}

namespace Process

def new (answers : Answers Q) : Process Q where
  files _ := none
  nextFile := 0
  files_lt := nofun
  queues _ := none
  sigsets _ := none
  mask _ := false
  answers := answers

def opened (process : Process Q) : Set RawFd := {fd | (process.files fd).isSome = true}

def queue (process : Process Q) (fd : RawFd) : Option Q :=
  (process.files fd).bind process.queues

def sigset (process : Process Q) (fd : RawFd) : Option (List Int32) :=
  (process.files fd).bind process.sigsets

theorem files_lt_update (process : Process Q) {file nextFile : File} (hfile : file < nextFile)
    (hnext : process.nextFile ≤ nextFile) (fd fd' : RawFd) (file' : File)
    (h : Function.update process.files fd (some file) fd' = some file') : file' < nextFile := by
  by_cases heq : fd' = fd
  · rw [heq, Function.update_self] at h
    exact Option.some.inj h ▸ hfile
  · rw [Function.update_of_ne heq] at h
    exact (process.files_lt fd' file' h).trans_le hnext

/-- Open `fd` for a new file, which is a selector or not. -/
def openFile (process : Process Q) (fd : RawFd) (queue : Option Q) : Process Q :=
  { process with
    files := Function.update process.files fd (some process.nextFile)
    nextFile := process.nextFile + 1
    files_lt := process.files_lt_update (Nat.lt_succ_self _) (Nat.le_succ _) fd
    queues := Function.update process.queues process.nextFile queue }

def setQueue (process : Process Q) (fd : RawFd) (queue : Q) : Process Q :=
  match process.files fd with
  | none => process
  | some file =>
      { process with queues := Function.update process.queues file (some queue) }

def setSigset (process : Process Q) (fd : RawFd) (set : List Int32) : Process Q :=
  match process.files fd with
  | none => process
  | some file =>
      { process with sigsets := Function.update process.sigsets file (some set) }

theorem setQueue_of_some {process : Process Q} {fd : RawFd} {file : File}
    (h : process.files fd = some file) (queue : Q) :
    process.setQueue fd queue
      = { process with queues := Function.update process.queues file (some queue) } := by
  simp only [setQueue, h]

theorem setQueue_self {process : Process Q} {fd : RawFd} {queue : Q}
    (h : process.queue fd = some queue) : process.setQueue fd queue = process := by
  obtain ⟨file, hfile, hqueue⟩ := Option.bind_eq_some_iff.mp h
  rw [setQueue_of_some hfile, ← hqueue, Function.update_eq_self]

theorem exists_setQueue (process : Process Q) (fd : RawFd) (queue : Q) :
    ∃ queues, process.setQueue fd queue = { process with queues } := by
  unfold setQueue
  split
  · exact ⟨process.queues, rfl⟩
  · exact ⟨_, rfl⟩

end Process

def openFile (queue : Option Q) : SysM Q RawFd := fun process =>
  match process.answers.alloc process.files with
  | .error err => (.error err, process)
  | .ok fd => (.ok fd, process.openFile fd queue)

/-- A call that opens no descriptor, and has no effect on what is kept of the process. -/
def call (syscall : Call) : SysM Q Unit := fun process =>
  (match process.answers.errno syscall with
    | some errno => .error ⟨errno⟩
    | none => .ok (), process)

def ebadf : Int32 := 9

def dup (fd : RawFd) : SysM Q RawFd := fun process =>
  match h : process.files fd, process.answers.alloc process.files with
  | none, _ => (.error ⟨ebadf⟩, process)
  | some _, .error err => (.error err, process)
  | some file, .ok fd' =>
      (.ok fd',
        { process with
          files := Function.update process.files fd' (some file)
          files_lt := process.files_lt_update (process.files_lt fd file h) le_rfl fd' })

/-- Two descriptors, the first for reading and the second for writing. Either both are opened or
neither is. -/
def pipe : SysM Q (RawFd × RawFd) := fun process =>
  match openFile none process with
  | (.error err, _) => (.error err, process)
  | (.ok first, after) =>
      match openFile none after with
      | (.error err, _) => (.error err, process)
      | (.ok second, after) => (.ok (first, second), after)

end Gaea.Sys
