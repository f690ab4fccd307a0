import Gaea.Sys.Process

/-!
# Sockets and pipes

The constructors of `TcpStream`, `TcpListener` and the two ends of a pipe. The descriptors are bare
numbers until the values that own them are built, at the end.
-/

namespace Gaea.Sys

variable {Q : Type}

/-- Values that close their descriptors when they are dropped. -/
class Owner (α : Type) where
  fds : α → List RawFd

def SocketAddr.family : SocketAddr → SocketFamily
  | .v4 _ _ => .inet
  | .v6 _ _ _ _ => .inet6

def socket (_family : SocketFamily) : SysM Q RawFd := openFile none

structure TcpStream where
  stream : RawFd
deriving DecidableEq

instance : Owner TcpStream := ⟨fun stream => [stream.stream]⟩

/-- A `connect` that would block returns `EINPROGRESS`, which is not considered an error. -/
def ignoreInProgress (err : IoError) : SysM Q Unit := fun process =>
  if err.rawOsError = process.answers.einprogress then (.ok (), process)
  else (.error err, process)

def TcpStream.connect (address : SocketAddr) : SysM Q TcpStream := do
  let socketFd ← socket address.family
  call (.setNonblocking socketFd)
  (call (.connect socketFd address)).orElse ignoreInProgress
  return ⟨socketFd⟩

structure TcpListener where
  listener : RawFd
deriving DecidableEq

instance : Owner TcpListener := ⟨fun listener => [listener.listener]⟩

def enableSocketOption (fd : RawFd) (name : SocketOption) : SysM Q Unit :=
  call (.setsockopt fd name)

def TcpListener.bind (address : SocketAddr) : SysM Q TcpListener := do
  let socketFd ← socket address.family
  enableSocketOption socketFd .reusePort
  enableSocketOption socketFd .reuseAddr
  call (.setNonblocking socketFd)
  call (.bind socketFd address)
  call (.listen socketFd 128)
  return ⟨socketFd⟩

structure Receiver where
  inner : RawFd
deriving DecidableEq

structure Sender where
  inner : RawFd
deriving DecidableEq

instance : Owner (Sender × Receiver) := ⟨fun pipe => [pipe.2.inner, pipe.1.inner]⟩

def newPipe : SysM Q (Sender × Receiver) := do
  let (first, second) ← pipe
  call (.setNonblocking first)
  call (.setNonblocking second)
  return (⟨second⟩, ⟨first⟩)

end Gaea.Sys
