import Gaea.Sys.Constructors

/-!
# Handles

The handles that a selector can watch, with the constructors that hand their descriptor to an owner
as soon as they have it, and how each of them is registered: by way of `EventedFd`, which passes the
descriptor on to the selector of the queue. A handle that is only ever read from, or only written
to, asserts that nothing else is asked of it.
-/

namespace Gaea.Sys

open Kqueue

/-! ## Constructors -/

structure UdpSocket where
  socket : RawFd
deriving DecidableEq

/-- The standard library owns the socket before it binds it. -/
def UdpSocket.bind (address : SocketAddr) : SysM KernelQueue UdpSocket := do
  let socketFd ← Sys.socket address.family
  (call (.bind socketFd address)).cleaningUp (close socketFd)
  (call (.setNonblocking socketFd)).cleaningUp (close socketFd)
  return ⟨socketFd⟩

def TcpListener.tryClone (listener : TcpListener) : SysM KernelQueue TcpListener := do
  let listenerFd ← dup listener.listener
  return ⟨listenerFd⟩

/-- Accept a connection from `peer`, which the system tells. -/
def TcpListener.accept (_listener : TcpListener) (peer : SocketAddr) :
    SysM KernelQueue (TcpStream × SocketAddr) := do
  let streamFd ← openFile none
  (call (.setNonblocking streamFd)).cleaningUp (close streamFd)
  return (⟨streamFd⟩, peer)

def Kqueue.Awakener.tryClone {Q : Type} (awakener : Kqueue.Awakener) : SysM Q Kqueue.Awakener := do
  let selector ← awakener.selector.tryClone
  return ⟨selector, awakener.id⟩

/-- The clone of the sender is dropped when the receiver cannot be cloned. -/
def Pipe.Awakener.tryClone (awakener : Pipe.Awakener) : SysM KernelQueue Pipe.Awakener := do
  let sender ← dup awakener.sender
  let receiver ← (dup awakener.receiver).cleaningUp (close sender)
  return ⟨sender, receiver⟩

/-! ## Registering -/

/-- The calls that change what a selector watches. -/
class Registry (Selector W : Type) where
  register (selector : Selector) (fd : RawFd) (id : Id) (interests : Interests)
    (opt : RegisterOption) (world : W) : Except IoError Unit × W
  reregister (selector : Selector) (fd : RawFd) (id : Id) (interests : Interests)
    (opt : RegisterOption) (world : W) : Except IoError Unit × W
  deregister (selector : Selector) (fd : RawFd) (world : W) : Except IoError Unit × W

instance {W : Type} [Epoll.Kernel W] : Registry Epoll.Selector W where
  register := Epoll.Selector.register
  reregister := Epoll.Selector.reregister
  deregister := Epoll.Selector.deregister

instance {W : Type} [Kernel W] : Registry Kqueue.Selector W where
  register := Kqueue.Selector.register
  reregister := Kqueue.Selector.reregister
  deregister := Kqueue.Selector.deregister

/-- A handle that can be registered. A call is `none` where a debug assertion fails. -/
class Evented (H Selector W : Type) where
  register (handle : H) (osQueue : OsQueue Selector) (id : Id) (interests : Interests)
    (opt : RegisterOption) (world : W) : Option (Except IoError Unit × W)
  reregister (handle : H) (osQueue : OsQueue Selector) (id : Id) (interests : Interests)
    (opt : RegisterOption) (world : W) : Option (Except IoError Unit × W)
  deregister (handle : H) (osQueue : OsQueue Selector) (world : W) :
    Option (Except IoError Unit × W)

def debugAssert {α : Type} (condition : Bool) (rest : Option α) : Option α :=
  if condition then rest else none

structure EventedFd where
  fd : RawFd
deriving DecidableEq

/-! The interests to register each handle with. -/

def TcpStream.interests : Interests := Interests.both

def TcpListener.interests : Interests := Interests.readable

def UdpSocket.interests : Interests := Interests.both

def Receiver.interests : Interests := Interests.readable

def Sender.interests : Interests := Interests.writable

section Evented

variable {Selector W : Type} [Registry Selector W]

instance : Evented EventedFd Selector W where
  register handle osQueue id interests opt world :=
    some (Registry.register osQueue.selector handle.fd id interests opt world)
  reregister handle osQueue id interests opt world :=
    some (Registry.reregister osQueue.selector handle.fd id interests opt world)
  deregister handle osQueue world :=
    some (Registry.deregister osQueue.selector handle.fd world)

instance : Evented TcpStream Selector W where
  register handle := Evented.register (EventedFd.mk handle.stream)
  reregister handle := Evented.reregister (EventedFd.mk handle.stream)
  deregister handle := Evented.deregister (EventedFd.mk handle.stream)

instance : Evented TcpListener Selector W where
  register handle osQueue id interests opt world :=
    debugAssert (!interests.isWritable)
      (Evented.register (EventedFd.mk handle.listener) osQueue id interests opt world)
  reregister handle osQueue id interests opt world :=
    debugAssert (!interests.isWritable)
      (Evented.reregister (EventedFd.mk handle.listener) osQueue id interests opt world)
  deregister handle := Evented.deregister (EventedFd.mk handle.listener)

instance : Evented UdpSocket Selector W where
  register handle := Evented.register (EventedFd.mk handle.socket)
  reregister handle := Evented.reregister (EventedFd.mk handle.socket)
  deregister handle := Evented.deregister (EventedFd.mk handle.socket)

instance : Evented Receiver Selector W where
  register handle osQueue id interests opt world :=
    debugAssert (!interests.isWritable)
      (Evented.register (EventedFd.mk handle.inner) osQueue id interests opt world)
  reregister handle osQueue id interests opt world :=
    debugAssert (!interests.isWritable)
      (Evented.reregister (EventedFd.mk handle.inner) osQueue id interests opt world)
  deregister handle := Evented.deregister (EventedFd.mk handle.inner)

instance : Evented Sender Selector W where
  register handle osQueue id interests opt world :=
    debugAssert (!interests.isReadable)
      (Evented.register (EventedFd.mk handle.inner) osQueue id interests opt world)
  reregister handle osQueue id interests opt world :=
    debugAssert (!interests.isReadable)
      (Evented.reregister (EventedFd.mk handle.inner) osQueue id interests opt world)
  deregister handle := Evented.deregister (EventedFd.mk handle.inner)

end Evented

end Gaea.Sys

namespace Gaea.OsQueue

open Sys

def new : SysM Kqueue.KernelQueue (OsQueue Kqueue.Selector) := do
  let selector ← Kqueue.Selector.new
  return ⟨selector⟩

variable {H Selector W : Type} [Evented H Selector W]

def register (queue : OsQueue Selector) (handle : H) (id : Id) (interests : Interests)
    (opt : RegisterOption) (world : W) : Option (Except IoError Unit × W) :=
  Evented.register handle queue id interests opt world

def reregister (queue : OsQueue Selector) (handle : H) (id : Id) (interests : Interests)
    (opt : RegisterOption) (world : W) : Option (Except IoError Unit × W) :=
  Evented.reregister handle queue id interests opt world

def deregister (queue : OsQueue Selector) (handle : H) (world : W) :
    Option (Except IoError Unit × W) :=
  Evented.deregister handle queue world

end Gaea.OsQueue
